import Hole.Effect.Trace
import Hole.Net.IpAddr
import Hole.State.VersionedFile
import Hole.Text.Numeral
import Mathlib.Data.List.Nodup

/-!
# The upgrade sweep

What a start makes of the DNS record that an older build left behind (`dns/recovery.rs`,
`dns_state.rs`, and the gate in `dns/system.rs`). Each family of each recorded adapter is judged by
itself: it is written only where the live setting is still the one that the record says was
advertised (`restoreFamilyIfOurs`). The verdicts are folded into one fate for the file: it is
deleted, or moved to a name that is free.

The readings and the writes of the backend are calls (`SweepOp`), and the folder is passed along:
nothing else touches it between the read and the end of a sweep. What may fail of the file system
is an argument (`SweepFaults`).

A record that names no adapter and no resolver is deleted too, though nothing speaks for it
(`deleted_without_evidence`); `sweepLaw_iff` says that it is the only one.
-/

namespace Hole

/-- The order of addresses: v4 first, and each family by its bits. -/
def IpAddr.le : IpAddr → IpAddr → Bool
  | .v4 a, .v4 b => a.toNat ≤ b.toNat
  | .v4 _, .v6 _ => true
  | .v6 _, .v4 _ => false
  | .v6 a, .v6 b => a.toNat ≤ b.toNat

theorem IpAddr.le_trans (a b c : IpAddr) (hab : a.le b = true) (hbc : b.le c = true) :
    a.le c = true := by
  cases a <;> cases b <;> cases c <;> simp_all [IpAddr.le] <;> omega

theorem IpAddr.le_total (a b : IpAddr) : (a.le b || b.le a) = true := by
  cases a <;> cases b <;> simp [IpAddr.le] <;> omega

theorem IpAddr.le_antisymm {a b : IpAddr} (hab : a.le b = true) (hba : b.le a = true) : a = b := by
  cases a <;> cases b <;> simp_all [IpAddr.le] <;> exact BitVec.eq_of_toNat_eq (by omega)

/-- Two lists sort alike if they have the same members, each as often. -/
theorem IpAddr.mergeSort_eq_iff {l l' : List IpAddr} :
    l.mergeSort IpAddr.le = l'.mergeSort IpAddr.le ↔ l.Perm l' := by
  constructor
  · intro h
    exact (List.mergeSort_perm l _).symm.trans (h ▸ List.mergeSort_perm l' _)
  · intro h
    have hsorted (l : List IpAddr) : (l.mergeSort IpAddr.le).Pairwise (fun a b ↦ a.le b = true) :=
      List.pairwise_mergeSort IpAddr.le_trans IpAddr.le_total l
    refine List.Perm.eq_of_pairwise (fun a b _ _ ↦ IpAddr.le_antisymm) (hsorted l) (hsorted l') ?_
    exact (List.mergeSort_perm l _).trans (h.trans (List.mergeSort_perm l' _).symm)

namespace Dns.Recovery

open Effect State
open Prog (hasTrace_pure hasTrace_bind)

/-! ### The record -/

/-- `DnsPrior`. -/
inductive DnsPrior
  | none
  | dhcp
  | static (servers : List IpAddr)
  deriving DecidableEq

/-- `AdapterId`. -/
inductive AdapterId
  | windowsAlias (value : String)
  | macosServiceName (value : String)

/-- `DnsPriorAdapter`. -/
structure DnsPriorAdapter where
  id : AdapterId
  nameAtCapture : String
  v4 : DnsPrior
  v6 : DnsPrior

/-- The setting of one family. -/
def DnsPriorAdapter.family (adapter : DnsPriorAdapter) (ipv6 : Bool) : DnsPrior :=
  if ipv6 then adapter.v6 else adapter.v4

/-- `DnsState`. -/
structure DnsState where
  advertised : List IpAddr
  adapters : List DnsPriorAdapter

/-- The systems that have a sweep. -/
inductive Os
  | windows
  | macos

/-- The name by which the backend of a system knows an adapter, if it is one of its own. -/
def AdapterId.nameOn : Os → AdapterId → Option String
  | .windows, windowsAlias value => some value
  | .macos, macosServiceName value => some value
  | .windows, macosServiceName _ => none
  | .macos, windowsAlias _ => none

/-! ### The gate -/

/-- `FamilyOutcome`. -/
inductive FamilyOutcome
  | restored
  | alreadyCorrect
  | skippedNotOurs
  | noEvidence
  | failed

/-- The calls of the backend. -/
inductive SweepOp
  | getSettings (name : String)
  | restoreFamily (name : String) (ipv6 : Bool) (prior : DnsPrior)

/-- Their answers. -/
abbrev SweepOp.Ans : SweepOp → Type
  | getSettings _ => Except String (Option DnsPriorAdapter)
  | restoreFamily _ _ _ => Except String Unit

/-- `dns_prior_matches_family_subset`. -/
def DnsPrior.matchesFamilySubset (live : DnsPrior) (advertisedFamilySubset : List IpAddr) : Bool :=
  match live with
  | static servers => servers.mergeSort IpAddr.le = advertisedFamilySubset.mergeSort IpAddr.le
  | none => false
  | dhcp => false

/-- `restore_family_if_ours`. -/
def restoreFamilyIfOurs (name : String) (ipv6 : Bool) (prior : DnsPrior)
    (advertisedFamilySubset : List IpAddr) : Prog SweepOp SweepOp.Ans FamilyOutcome :=
  if advertisedFamilySubset = [] then pure .noEvidence
  else do
    match ← Prog.perform (SweepOp.getSettings name) with
    | .ok (some adapter) =>
      let live := adapter.family ipv6
      if live.matchesFamilySubset advertisedFamilySubset = false then return .skippedNotOurs
      else if live = prior then return .alreadyCorrect
      else
        match ← Prog.perform (SweepOp.restoreFamily name ipv6 prior) with
        | .ok () => return .restored
        | .error _ => return .failed
    | .ok none => return .skippedNotOurs
    | .error _ => return .failed

/-! ### The sweep -/

/-- `split_advertised`. -/
def splitAdvertised (advertised : List IpAddr) : List IpAddr × List IpAddr :=
  advertised.partition IpAddr.isIpv4

/-- `settled`. -/
def settled (advertisedTotallyEmpty : Bool) : FamilyOutcome → Bool
  | .restored => true
  | .alreadyCorrect => true
  | .noEvidence => !advertisedTotallyEmpty
  | .skippedNotOurs => false
  | .failed => false

/-- One round of the loop of `recover_dns_config_with`. -/
def sweepAdapter (os : Os) (state : DnsState) (fullySettled : Bool) (adapter : DnsPriorAdapter) :
    Prog SweepOp SweepOp.Ans Bool :=
  match adapter.id.nameOn os with
  | none => return false
  | some name => do
    let v4 ← restoreFamilyIfOurs name false adapter.v4 (splitAdvertised state.advertised).1
    let v6 ← restoreFamilyIfOurs name true adapter.v6 (splitAdvertised state.advertised).2
    return fullySettled &&
      (settled state.advertised.isEmpty v4 && settled state.advertised.isEmpty v6)

/-! ### The file -/

/-- What may stand at another name of the folder. -/
inductive Occupant
  | record (content : Content DnsState)
  | other

/-- The folder of the record: the file, and what is at other names. -/
structure RecordFolder where
  disk : Disk DnsState
  others : List (List Char × Occupant)

/-- What fails of the file system in one sweep. -/
structure SweepFaults where
  load : Faults
  clear : Faults
  /-- The directory does not open for `supersede`. -/
  openDir : Bool
  /-- The rename to the `n`th name fails by itself. -/
  rename : Nat → Bool

/-- Nothing fails. -/
def SweepFaults.none : SweepFaults := ⟨.none, .none, false, fun _ ↦ false⟩

/-- `superseded_file_name`. -/
def supersededFileName (n : Nat) : List Char :=
  if n = 1 then "bridge-dns.superseded.json".toList
  else "bridge-dns.superseded.".toList ++ Nat.toDigits 10 n ++ ".json".toList

/-- The kinds of errors of a rename that `supersede` tells apart. -/
inductive RenameError
  | alreadyExists
  | notFound
  | other

/-- A name of a superseded file is one of no other number. -/
theorem supersededFileName_injective : Function.Injective supersededFileName := by
  have hdigits (n : Nat) : 'j' ∉ Nat.toDigits 10 n :=
    Text.not_mem_toDigits (by decide) (by decide) (by decide)
  -- the first name has no number, and starts like none that has one
  have hfirst (n : Nat) : "bridge-dns.superseded.json".toList ≠
      "bridge-dns.superseded.".toList ++ Nat.toDigits 10 n ++ ".json".toList := by
    intro h
    rw [show "bridge-dns.superseded.json".toList =
      "bridge-dns.superseded.".toList ++ "json".toList from rfl, List.append_assoc] at h
    have htail := List.append_cancel_left h
    rcases hn : Nat.toDigits 10 n with - | ⟨d, ds⟩
    · rw [hn] at htail
      cases htail
    · rw [hn] at htail
      obtain rfl : 'j' = d := List.head_eq_of_cons_eq htail
      exact hdigits n (hn ▸ (.head _))
  intro m n h
  unfold supersededFileName at h
  split at h
  · next hm =>
    split at h
    · next hn => rw [hm, hn]
    · exact absurd h (hfirst n)
  · split at h
    · exact absurd h.symm (hfirst m)
    · have hmn : Nat.toDigits 10 m = Nat.toDigits 10 n :=
        List.append_cancel_left (List.append_cancel_right h)
      have hread : Text.readNat 10 (Nat.toDigits 10 m) = some m :=
        Text.readNat_toDigits (by decide) (by decide) m
      rw [hmn, Text.readNat_toDigits (by decide) (by decide) n] at hread
      exact (Option.some.inj hread).symm

namespace RecordFolder

variable (folder : RecordFolder)

/-- Something is at a name. -/
def Taken (name : List Char) : Prop := name ∈ folder.others.map Prod.fst

instance (name : List Char) : Decidable (folder.Taken name) := inferInstanceAs (Decidable (_ ∈ _))

/-- The folder once the file is at a name. -/
def moved (content : Content DnsState) (name : List Char) : RecordFolder :=
  ⟨{ folder.disk with file := none }, (name, .record content) :: folder.others⟩

/-- `load`. -/
def load (faults : Faults) : Option DnsState :=
  match folder.disk.observe faults with
  | .current value _ => some value
  | .absent => none
  | .obsolete _ => none
  | .newer _ => none
  | .corrupt => none
  | .unreadable _ => none

/-- `clear`. -/
def clear (faults : Faults) : Except StoreError UpdateOutcome × RecordFolder :=
  let r := folder.disk.update .legacyRecord 1 faults fun _ ↦ .remove
  (r.1, { folder with disk := r.2 })

/-- `rename_noreplace`, of the file. -/
def renameNoreplace (fails : Bool) (name : List Char) : Except RenameError RecordFolder :=
  if fails then .error .other
  else
    match folder.disk.file with
    | none => .error .notFound
    | some content =>
      if folder.Taken name then .error .alreadyExists else .ok (folder.moved content name)

variable {folder}

/-- Only so many names can be taken. -/
theorem le_length_of_taken {n : Nat}
    (h : ∀ k, 1 ≤ k → k ≤ n → folder.Taken (supersededFileName k)) : n ≤ folder.others.length := by
  have hnodup : ((List.range' 1 n).map supersededFileName).Nodup :=
    (List.nodup_range' (h := Nat.one_pos)).map supersededFileName_injective
  have hsubset : (List.range' 1 n).map supersededFileName ⊆ folder.others.map Prod.fst := by
    intro name hname
    obtain ⟨k, hk, rfl⟩ := List.mem_map.1 hname
    obtain ⟨hle, hlt⟩ := List.mem_range'_1.1 hk
    exact h k hle (by omega)
  simpa using hnodup.length_le_of_subset hsubset

theorem taken_of_renameNoreplace {fails : Bool} {name : List Char}
    (h : folder.renameNoreplace fails name = .error .alreadyExists) : folder.Taken name := by
  unfold renameNoreplace at h
  split at h
  · cases h
  · split at h
    · cases h
    · split at h
      · assumption
      · cases h

/-- The loop of `supersede`, from the `n`th name on, where every name before it is taken. -/
def supersedeFrom (folder : RecordFolder) (fails : Nat → Bool) (n : Nat)
    (h : ∀ k, 1 ≤ k → k < n → folder.Taken (supersededFileName k)) :
    Except RenameError RecordFolder :=
  match hrename : folder.renameNoreplace (fails n) (supersededFileName n) with
  | .ok folder => .ok folder
  | .error .alreadyExists =>
    supersedeFrom folder fails (n + 1) fun k hk hlt ↦
      if heq : k = n then heq ▸ taken_of_renameNoreplace hrename else h k hk (by omega)
  | .error .notFound => .ok folder
  | .error .other => .error .other
termination_by folder.others.length + 1 - n
decreasing_by
  have hle : n ≤ folder.others.length := le_length_of_taken fun k hk hkn ↦
    if heq : k = n then heq ▸ taken_of_renameNoreplace hrename else h k hk (by omega)
  omega

/-- `supersede`: the folder that it leaves, or why it moved nothing. -/
def supersede (folder : RecordFolder) (faults : SweepFaults) : Except RenameError RecordFolder :=
  if faults.openDir then .error .other
  else folder.supersedeFrom faults.rename 1 fun _ _ _ ↦ by omega

/-- `finish`. -/
def finish (folder : RecordFolder) (faults : SweepFaults) (fullySettled : Bool) : RecordFolder :=
  let (cleared, folder) :=
    if fullySettled then
      match folder.clear faults.clear with
      | (.ok .removed, folder) => (true, folder)
      | (.ok .absent, folder) => (true, folder)
      | (_, folder) => (false, folder)
    else (false, folder)
  if cleared then folder else (folder.supersede faults).toOption.getD folder

end RecordFolder

/-- `recover_dns_config_with`. -/
def recoverDnsConfigWith (os : Os) (folder : RecordFolder) (faults : SweepFaults) :
    Prog SweepOp SweepOp.Ans RecordFolder :=
  match folder.load faults.load with
  | none => pure folder
  | some state => do
    let fullySettled ← state.adapters.foldlM (sweepAdapter os state) true
    return folder.finish faults fullySettled

/-! ### The gate, by what it did -/

/-- The advertised resolvers of a family. -/
def DnsState.advertisedOf (state : DnsState) (ipv6 : Bool) : List IpAddr :=
  state.advertised.filter fun ip ↦ ip.isIpv4 != ipv6

/-- A setting is the one that was advertised: a static list of these resolvers, in any order. -/
def DnsState.Ours (state : DnsState) (ipv6 : Bool) (live : DnsPrior) : Prop :=
  state.advertisedOf ipv6 ≠ [] ∧
    ∃ servers, live = .static servers ∧ servers.Perm (state.advertisedOf ipv6)

theorem splitAdvertised_eq (state : DnsState) :
    splitAdvertised state.advertised = (state.advertisedOf false, state.advertisedOf true) := by
  rw [splitAdvertised, List.partition_eq_filter_filter]
  congr 1 <;> refine List.filter_congr fun ip _ ↦ ?_ <;> cases ip <;> rfl

theorem matchesFamilySubset_iff {live : DnsPrior} {subset : List IpAddr} :
    live.matchesFamilySubset subset = true ↔
      ∃ servers, live = .static servers ∧ servers.Perm subset := by
  cases live with
  | none => exact iff_of_false nofun nofun
  | dhcp => exact iff_of_false nofun nofun
  | static servers =>
    refine decide_eq_true_iff.trans (IpAddr.mergeSort_eq_iff.trans ⟨fun h ↦ ⟨_, rfl, h⟩, ?_⟩)
    rintro ⟨servers', heq, h⟩
    cases heq
    exact h

variable {os : Os} {state : DnsState} {name : String} {ipv6 : Bool} {prior : DnsPrior}
  {outcome : FamilyOutcome} {adapter : DnsPriorAdapter} {t u : List (Exchange SweepOp.Ans)}

/-- The calls of one verdict, with their answers. -/
inductive FamilyRun (state : DnsState) (name : String) (ipv6 : Bool) (prior : DnsPrior) :
    List (Exchange SweepOp.Ans) → FamilyOutcome → Prop
  | noEvidence (h : state.advertisedOf ipv6 = []) : FamilyRun state name ipv6 prior [] .noEvidence
  | left {x : Except String (Option DnsPriorAdapter)} {outcome : FamilyOutcome}
      (h : outcome = .skippedNotOurs ∨ outcome = .failed) :
      FamilyRun state name ipv6 prior [⟨.getSettings name, x⟩] outcome
  | alreadyCorrect {live : DnsPriorAdapter} (h : state.Ours ipv6 (live.family ipv6))
      (hprior : live.family ipv6 = prior) :
      FamilyRun state name ipv6 prior [⟨.getSettings name, .ok (some live)⟩] .alreadyCorrect
  | restored {live : DnsPriorAdapter} (h : state.Ours ipv6 (live.family ipv6)) :
      FamilyRun state name ipv6 prior
        [⟨.getSettings name, .ok (some live)⟩, ⟨.restoreFamily name ipv6 prior, .ok ()⟩] .restored
  | unwritten {live : DnsPriorAdapter} {e : String} (h : state.Ours ipv6 (live.family ipv6)) :
      FamilyRun state name ipv6 prior
        [⟨.getSettings name, .ok (some live)⟩, ⟨.restoreFamily name ipv6 prior, .error e⟩] .failed

theorem familyRun_of_hasTrace
    (h : (restoreFamilyIfOurs name ipv6 prior (state.advertisedOf ipv6)).HasTrace u outcome) :
    FamilyRun state name ipv6 prior u outcome := by
  unfold restoreFamilyIfOurs at h
  split at h
  · next hempty =>
    obtain ⟨rfl, rfl⟩ := hasTrace_pure.1 h
    exact .noEvidence hempty
  · next hne =>
    obtain ⟨t₁, t₂, x, rfl, h₁, h₂⟩ := hasTrace_bind.1 h
    obtain rfl := Prog.hasTrace_perform.1 h₁
    rcases x with e | - | live
    · obtain ⟨rfl, rfl⟩ := hasTrace_pure.1 h₂
      exact .left (.inr rfl)
    · obtain ⟨rfl, rfl⟩ := hasTrace_pure.1 h₂
      exact .left (.inl rfl)
    · dsimp only at h₂
      split at h₂
      · obtain ⟨rfl, rfl⟩ := hasTrace_pure.1 h₂
        exact .left (.inl rfl)
      · next hmatches =>
        have hours : state.Ours ipv6 (live.family ipv6) :=
          ⟨hne, matchesFamilySubset_iff.1 (by simpa using hmatches)⟩
        split at h₂
        · next hcorrect =>
          obtain ⟨rfl, rfl⟩ := hasTrace_pure.1 h₂
          exact .alreadyCorrect hours hcorrect
        · obtain ⟨t₃, t₄, y, rfl, h₃, h₄⟩ := hasTrace_bind.1 h₂
          obtain rfl := Prog.hasTrace_perform.1 h₃
          rcases y with e | ⟨⟩
          · obtain ⟨rfl, rfl⟩ := hasTrace_pure.1 h₄
            exact .unwritten hours
          · obtain ⟨rfl, rfl⟩ := hasTrace_pure.1 h₄
            exact .restored hours

/-- Every write puts back a recorded prior, right after a reading that the setting is the
advertised one. -/
def OnlyOwed (os : Os) (state : DnsState) (t : List (Exchange SweepOp.Ans)) : Prop :=
  ∀ pre name ipv6 prior x post, t = pre ++ ⟨.restoreFamily name ipv6 prior, x⟩ :: post →
    (∃ before live, pre = before ++ [⟨.getSettings name, .ok (some live)⟩] ∧
      state.Ours ipv6 (live.family ipv6)) ∧
    ∃ adapter ∈ state.adapters, adapter.id.nameOn os = some name ∧ adapter.family ipv6 = prior

theorem OnlyOwed.nil : OnlyOwed os state [] := by
  intro pre name ipv6 prior x post h
  cases pre <;> cases h

theorem OnlyOwed.append (ht : OnlyOwed os state t) (hu : OnlyOwed os state u) :
    OnlyOwed os state (t ++ u) := by
  intro pre name ipv6 prior x post h
  rcases List.append_eq_append_iff.1 h with ⟨pre', rfl, h'⟩ | ⟨post', rfl, h'⟩
  · obtain ⟨⟨before, live, rfl, hours⟩, hadapter⟩ := hu _ _ _ _ _ _ h'
    exact ⟨⟨t ++ before, live, (List.append_assoc ..).symm, hours⟩, hadapter⟩
  · cases post' with
    | nil =>
      obtain ⟨⟨before, live, hnil, -⟩, -⟩ := hu [] _ _ _ _ _ h'.symm
      cases before <;> cases hnil
    | cons e post' =>
      obtain ⟨rfl, -⟩ := List.cons.inj h'
      exact ht _ _ _ _ _ _ rfl

/-- A family was never advertised, was read as the prior, or was written back. -/
def FamilySettled (state : DnsState) (name : String) (ipv6 : Bool) (prior : DnsPrior)
    (u : List (Exchange SweepOp.Ans)) : Prop :=
  (state.advertisedOf ipv6 = [] ∧ u = []) ∨
    (∃ live : DnsPriorAdapter, live.family ipv6 = prior ∧
      u = [⟨.getSettings name, .ok (some live)⟩]) ∨
    ∃ live, u = [⟨.getSettings name, .ok (some live)⟩, ⟨.restoreFamily name ipv6 prior, .ok ()⟩]

namespace FamilyRun

variable (h : FamilyRun state name ipv6 prior u outcome)
include h

theorem onlyOwed (hmem : adapter ∈ state.adapters) (hname : adapter.id.nameOn os = some name)
    (hprior : adapter.family ipv6 = prior) : OnlyOwed os state u := by
  intro pre name' ipv6' prior' x post heq
  cases h with
  | noEvidence => cases pre <;> cases heq
  | left => rcases pre with - | ⟨_, - | _⟩ <;> cases heq
  | alreadyCorrect => rcases pre with - | ⟨_, - | _⟩ <;> cases heq
  | restored hours =>
    rcases pre with - | ⟨_, - | ⟨_, - | _⟩⟩ <;> cases heq
    exact ⟨⟨[], _, rfl, hours⟩, adapter, hmem, hname, hprior⟩
  | unwritten hours =>
    rcases pre with - | ⟨_, - | ⟨_, - | _⟩⟩ <;> cases heq
    exact ⟨⟨[], _, rfl, hours⟩, adapter, hmem, hname, hprior⟩

theorem familySettled (hsettled : settled state.advertised.isEmpty outcome = true) :
    state.advertised ≠ [] ∧ FamilySettled state name ipv6 prior u := by
  have hne (hours : state.advertisedOf ipv6 ≠ []) : state.advertised ≠ [] := by
    intro hnil
    rw [DnsState.advertisedOf, hnil] at hours
    exact hours rfl
  cases h with
  | noEvidence hempty =>
    refine ⟨fun hnil ↦ ?_, .inl ⟨hempty, rfl⟩⟩
    rw [hnil] at hsettled
    cases hsettled
  | left hleft => rcases hleft with rfl | rfl <;> cases hsettled
  | alreadyCorrect hours hlive => exact ⟨hne hours.1, .inr (.inl ⟨_, hlive, rfl⟩)⟩
  | restored hours => exact ⟨hne hours.1, .inr (.inr ⟨_, rfl⟩)⟩
  | unwritten => cases hsettled

end FamilyRun

/-- Both families of an adapter of this system are settled. -/
def AdapterSettled (os : Os) (state : DnsState) (adapter : DnsPriorAdapter)
    (u : List (Exchange SweepOp.Ans)) : Prop :=
  ∃ name v4 v6, adapter.id.nameOn os = some name ∧ u = v4 ++ v6 ∧
    FamilySettled state name false adapter.v4 v4 ∧ FamilySettled state name true adapter.v6 v6

/-- What a round of the loop does. -/
theorem sweepAdapter_of_hasTrace {b b' : Bool} (hmem : adapter ∈ state.adapters)
    (h : (sweepAdapter os state b adapter).HasTrace u b') :
    OnlyOwed os state u ∧
      (b' = true → b = true ∧ state.advertised ≠ [] ∧ AdapterSettled os state adapter u) := by
  unfold sweepAdapter at h
  split at h
  · obtain ⟨rfl, rfl⟩ := hasTrace_pure.1 h
    exact ⟨.nil, (by rintro ⟨⟩)⟩
  · next name hname =>
    rw [splitAdvertised_eq] at h
    obtain ⟨t₄, t', v4, rfl, h₄, h'⟩ := hasTrace_bind.1 h
    obtain ⟨t₆, t₀, v6, rfl, h₆, h₀⟩ := hasTrace_bind.1 h'
    obtain ⟨rfl, rfl⟩ := hasTrace_pure.1 h₀
    have hrun4 := familyRun_of_hasTrace h₄
    have hrun6 := familyRun_of_hasTrace h₆
    rw [List.append_nil]
    refine ⟨(hrun4.onlyOwed hmem hname rfl).append (hrun6.onlyOwed hmem hname rfl), fun hb ↦ ?_⟩
    obtain ⟨hb, hsettled⟩ := Bool.and_eq_true_iff.1 hb
    obtain ⟨hsettled4, hsettled6⟩ := Bool.and_eq_true_iff.1 hsettled
    obtain ⟨hne, hfamily4⟩ := hrun4.familySettled hsettled4
    exact ⟨hb, hne, name, t₄, t₆, hname, rfl, hfamily4, (hrun6.familySettled hsettled6).2⟩

/-- Every adapter of the record is settled, one after another. -/
def AllSettled (os : Os) (state : DnsState) (t : List (Exchange SweepOp.Ans)) : Prop :=
  ∃ parts, List.Forall₂ (AdapterSettled os state) state.adapters parts ∧ t = parts.flatten

/-- What the loop does. -/
theorem sweep_of_hasTrace {b : Bool}
    (h : (state.adapters.foldlM (sweepAdapter os state) true).HasTrace t b) :
    OnlyOwed os state t ∧
      (b = true → AllSettled os state t ∧ (state.adapters ≠ [] → state.advertised ≠ [])) := by
  let L (rest : List DnsPriorAdapter) (b : Bool) (u : List (Exchange SweepOp.Ans)) : Prop :=
    ∃ before, state.adapters = before ++ rest ∧ OnlyOwed os state u ∧
      (b = true → (before ≠ [] → state.advertised ≠ []) ∧
        ∃ parts, List.Forall₂ (AdapterSettled os state) before parts ∧ u = parts.flatten)
  have hend : L [] b ([] ++ t) := by
    refine h.foldlM [] ⟨[], rfl, .nil, fun _ ↦ ⟨fun hne ↦ absurd rfl hne, [], .nil, rfl⟩⟩ ?_
    rintro adapter rest b u u' b' ⟨before, hsplit, howed, hsettled⟩ hround
    have hmem : adapter ∈ state.adapters := by
      rw [hsplit]
      exact List.mem_append_right _ (.head _)
    obtain ⟨howed', hsettled'⟩ := sweepAdapter_of_hasTrace hmem hround
    refine ⟨before ++ [adapter], by rw [hsplit, List.append_assoc]; rfl, howed.append howed',
      fun hb' ↦ ?_⟩
    obtain ⟨hb, hne, hadapter⟩ := hsettled' hb'
    obtain ⟨-, parts, hparts, rfl⟩ := hsettled hb
    exact ⟨fun _ ↦ hne, parts ++ [u'], List.rel_append hparts (.cons hadapter .nil), by simp⟩
  rw [List.nil_append] at hend
  obtain ⟨before, hsplit, howed, hsettled⟩ := hend
  obtain rfl : state.adapters = before := by rw [hsplit, List.append_nil]
  exact ⟨howed, fun hb ↦ ⟨(hsettled hb).2, (hsettled hb).1⟩⟩

/-! ### The fate of the file -/

namespace RecordFolder

variable {folder : RecordFolder} {content : Content DnsState}

/-- The folder without the file. -/
def deleted (folder : RecordFolder) : RecordFolder :=
  { folder with disk := { folder.disk with file := none } }

theorem file_of_current {read : Option UnreadableKind} {found : Nat}
    (h : folder.disk.load read = .current state found) :
    folder.disk.file = some (.current state found) := by
  unfold Disk.load at h
  cases read with
  | some kind => cases h
  | none =>
    rcases hfile : folder.disk.file with - | content
    · rw [hfile] at h
      cases h
    · rw [hfile] at h
      cases content <;> cases h
      rfl

theorem file_of_load {faults : Faults} (h : folder.load faults = some state) :
    ∃ found, folder.disk.file = some (.current state found) := by
  unfold load at h
  split at h
  · next value found hobserve =>
    cases h
    exact ⟨found, file_of_current hobserve⟩
  all_goals cases h

/-- A file that is not there is not loaded. -/
theorem load_of_not_file (faults : Faults) (h : folder.disk.file = none) :
    folder.load faults = none := by
  cases hload : folder.load faults with
  | none => rfl
  | some state =>
    obtain ⟨found, hfile⟩ := file_of_load hload
    cases h.symm.trans hfile

/-- A record that this release reads is deleted, or stays. -/
theorem clear_of_current (faults : Faults) {found : Nat}
    (hfile : folder.disk.file = some (.current state found)) :
    folder.clear faults = (.ok .removed, folder.deleted) ∨
      ∃ r, folder.clear faults = (r, folder) ∧ r ≠ .ok .removed ∧ r ≠ .ok .absent := by
  unfold clear Disk.update
  split
  · exact .inr ⟨_, rfl, (by rintro ⟨⟩), (by rintro ⟨⟩)⟩
  · rcases hread : faults.read with - | kind
    · have hload : folder.disk.load none = .current state found := by
        rw [Disk.load, hfile]
        rfl
      rw [hload]
      cases hact : faults.act with
      | true =>
        refine .inr ⟨.error .io, ?_, (by rintro ⟨⟩), (by rintro ⟨⟩)⟩
        simp [Disk.unencodable, step, removeStep, Disk.act, hfile, hact]
      | false =>
        refine .inl ?_
        simp [Disk.unencodable, step, removeStep, Disk.act, hfile, hact, deleted]
    · exact .inr ⟨_, rfl, (by rintro ⟨⟩), (by rintro ⟨⟩)⟩

/-- The file is moved to a name that was free, and all else is as it was. -/
def MovedTo (folder : RecordFolder) (n : Nat) (folder' : RecordFolder) : Prop :=
  ∃ content, folder.disk.file = some content ∧ ¬folder.Taken (supersededFileName n) ∧
    (∀ k, 1 ≤ k → k < n → folder.Taken (supersededFileName k)) ∧
    folder' = folder.moved content (supersededFileName n)

/-- The loop moves the file to the first name that is free, or fails. -/
theorem supersedeFrom_spec (fails : Nat → Bool) {n : Nat}
    (h : ∀ k, 1 ≤ k → k < n → folder.Taken (supersededFileName k))
    (hfile : folder.disk.file = some content) :
    folder.supersedeFrom fails n h = .error .other ∨
      ∃ m folder', folder.supersedeFrom fails n h = .ok folder' ∧ folder.MovedTo m folder' := by
  fun_induction supersedeFrom folder fails n h with
  | case1 n h folder' hrename =>
    refine .inr ⟨n, folder', rfl, content, hfile, ?_⟩
    unfold renameNoreplace at hrename
    rw [hfile] at hrename
    split at hrename
    · cases hrename
    · dsimp only at hrename
      split at hrename
      · cases hrename
      · next hfree =>
        cases hrename
        exact ⟨hfree, h, rfl⟩
  | case2 n h hrename ih => exact ih
  | case3 n h hrename =>
    unfold renameNoreplace at hrename
    rw [hfile] at hrename
    split at hrename
    · cases hrename
    · dsimp only at hrename
      split at hrename <;> cases hrename
  | case4 => exact .inl rfl

/-- `supersede` moves the file to the first name that is free, or fails and moves nothing. -/
theorem supersede_cases (faults : SweepFaults) (hfile : folder.disk.file = some content) :
    (folder.supersede faults = .error .other ∧
      (folder.supersede faults).toOption.getD folder = folder) ∨
      ∃ m, folder.MovedTo m ((folder.supersede faults).toOption.getD folder) := by
  unfold supersede
  split
  · exact .inl ⟨rfl, rfl⟩
  · rcases supersedeFrom_spec faults.rename (n := 1) (fun _ _ _ ↦ by omega) hfile with
      herror | ⟨m, folder', hok, hmoved⟩
    · rw [herror]
      exact .inl ⟨rfl, rfl⟩
    · rw [hok]
      exact .inr ⟨m, hmoved⟩

/-- **One of three fates**: the file is deleted, which takes that all is settled, or it is moved, or
the move failed and it stays. -/
theorem finish_cases (faults : SweepFaults) {found : Nat} (fullySettled : Bool)
    (hfile : folder.disk.file = some (.current state found)) :
    (fullySettled = true ∧ folder.finish faults fullySettled = folder.deleted) ∨
      (∃ m, folder.MovedTo m (folder.finish faults fullySettled)) ∨
      folder.supersede faults = .error .other ∧ folder.finish faults fullySettled = folder := by
  have hmove : folder.finish faults fullySettled =
      (folder.supersede faults).toOption.getD folder →
      (∃ m, folder.MovedTo m (folder.finish faults fullySettled)) ∨
      folder.supersede faults = .error .other ∧ folder.finish faults fullySettled = folder := by
    intro h
    rw [h]
    rcases supersede_cases faults hfile with herror | hmoved
    · exact .inr herror
    · exact .inl hmoved
  cases fullySettled with
  | false => exact .inr (hmove rfl)
  | true =>
    rcases clear_of_current faults.clear hfile with hclear | ⟨r, hclear, hne, hne'⟩
    · refine .inl ⟨rfl, ?_⟩
      rw [finish, if_pos rfl, hclear]
      rfl
    · refine .inr (hmove ?_)
      rw [finish, if_pos rfl, hclear]
      split
      next cleared folder' heq =>
        split at heq
        · next h => cases h; exact absurd rfl hne
        · next h => cases h; exact absurd rfl hne'
        · next h =>
          cases h
          cases heq
          rfl

end RecordFolder

/-! ### The law -/

/-- What one evaluation of a record did. -/
structure Evaluated (os : Os) (state : DnsState) (folder : RecordFolder) (faults : SweepFaults)
    (t : List (Exchange SweepOp.Ans)) (folder' : RecordFolder) : Prop where
  onlyOwed : OnlyOwed os state t
  /-- The file is gone, unless it could not be moved. -/
  gone : folder'.disk.file = none ∨ ∃ e, folder.supersede faults = .error e
  /-- A later start does not evaluate it again. -/
  once : folder'.disk.file = none →
    ∀ faults', recoverDnsConfigWith os folder' faults' = pure folder'
  /-- It is deleted on evidence only, and is moved otherwise. -/
  fate : (folder' = folder.deleted ∧ state.advertised ≠ [] ∧ AllSettled os state t) ∨
    (∃ n, folder.MovedTo n folder') ∨
    (folder' = folder ∧ ∃ e, folder.supersede faults = .error e)

/-- Whatever the readings and the writes give, and whatever fails, a record is evaluated so. -/
def SweepLaw (os : Os) (state : DnsState) : Prop :=
  ∀ folder faults t folder', folder.load faults.load = some state →
    (recoverDnsConfigWith os folder faults).HasTrace t folder' →
      Evaluated os state folder faults t folder'

theorem recoverDnsConfigWith_of_not_file {folder : RecordFolder} (h : folder.disk.file = none)
    (faults : SweepFaults) : recoverDnsConfigWith os folder faults = pure folder := by
  rw [recoverDnsConfigWith, RecordFolder.load_of_not_file _ h]

theorem sweepLaw_of_evidence (h : state.adapters ≠ [] ∨ state.advertised ≠ []) :
    SweepLaw os state := by
  intro folder faults t folder' hload ht
  rw [recoverDnsConfigWith, hload] at ht
  obtain ⟨t₁, t₂, b, rfl, hsweep, h₂⟩ := hasTrace_bind.1 ht
  obtain ⟨rfl, rfl⟩ := hasTrace_pure.1 h₂
  rw [List.append_nil]
  obtain ⟨howed, hsettled⟩ := sweep_of_hasTrace hsweep
  obtain ⟨found, hfile⟩ := RecordFolder.file_of_load hload
  have hfates := RecordFolder.finish_cases faults b hfile
  refine ⟨howed, ?_, fun hgone faults' ↦ recoverDnsConfigWith_of_not_file hgone faults', ?_⟩
  · rcases hfates with ⟨-, hdeleted⟩ | ⟨m, content, -, -, -, hmoved⟩ | ⟨herror, -⟩
    · exact .inl (hdeleted ▸ rfl)
    · exact .inl (hmoved ▸ rfl)
    · exact .inr ⟨_, herror⟩
  · rcases hfates with ⟨hb, hdeleted⟩ | hmoved | ⟨herror, hstays⟩
    · obtain ⟨hall, hadvertised⟩ := hsettled hb
      exact .inl ⟨hdeleted, h.elim hadvertised id, hall⟩
    · exact .inr (.inl hmoved)
    · exact .inr (.inr ⟨hstays, _, herror⟩)

/-- The folder of a record that says nothing. -/
def emptyRecord : RecordFolder := ⟨⟨some (.current ⟨[], []⟩ 1), []⟩, []⟩

theorem recover_emptyRecord (os : Os) :
    recoverDnsConfigWith os emptyRecord .none = pure emptyRecord.deleted := rfl

theorem not_evaluated_emptyRecord (os : Os) :
    ¬Evaluated os ⟨[], []⟩ emptyRecord .none [] emptyRecord.deleted := by
  intro heval
  rcases heval.fate with ⟨-, hne, -⟩ | ⟨n, content, -, -, -, hmoved⟩ | ⟨hstays, -⟩
  · exact hne rfl
  · cases hmoved
  · cases hstays

/-- **A sweep acts on evidence**, but for the record that names nothing. -/
theorem sweepLaw_iff : SweepLaw os state ↔ state.adapters ≠ [] ∨ state.advertised ≠ [] := by
  refine ⟨fun hlaw ↦ ?_, sweepLaw_of_evidence⟩
  by_contra hnone
  rw [not_or, not_not, not_not] at hnone
  obtain ⟨advertised, adapters⟩ := state
  obtain ⟨rfl, rfl⟩ := hnone
  exact not_evaluated_emptyRecord os (hlaw _ _ _ _ rfl (recover_emptyRecord os ▸ .pure _))

/-- The record that names no adapter and no resolver is deleted. -/
theorem deleted_without_evidence :
    emptyRecord.load .none = some ⟨[], []⟩ ∧
      (recoverDnsConfigWith .windows emptyRecord .none).HasTrace [] emptyRecord.deleted ∧
      emptyRecord.deleted.others = [] ∧ ¬SweepLaw .windows ⟨[], []⟩ := by
  have hrun : (recoverDnsConfigWith .windows emptyRecord .none).HasTrace []
      emptyRecord.deleted := recover_emptyRecord .windows ▸ .pure _
  exact ⟨rfl, hrun, rfl, fun hlaw ↦ not_evaluated_emptyRecord _ (hlaw _ _ _ _ rfl hrun)⟩

end Dns.Recovery

end Hole
