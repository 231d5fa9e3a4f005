import Hole.Filter.HttpHost
import Hole.Net.Octets
import Hole.Plugin.ExRay
import Hole.Text.Search
import Hole.Text.Utf8Slice

/-!
# Redaction

`crates/util/src/redact.rs`: the registry of the literals that must not reach a log, and what a line
is once they are replaced. The registry is swapped as a whole, so calls of `arm` may run at once and
take effect in the order in which they swap (`Registered`). A line is searched for all literals at a
time; the search is a parameter, of which only what its documentation says is used
(`LeftmostLongest`).

The search forgets the case of ASCII letters and so does the key of an entry, which makes the two
agree on what is one literal (`utf8_toAsciiLowercase`).
-/

namespace Hole.Logging

open Text Hole.Filter

/-! ### Case -/

theorem onAscii_asciiLower : OnAscii asciiLower where
  ascii b hb := by
    have hlt : b.toNat < 128 := hb
    rw [asciiLower]
    split
    · next h =>
      have hle : b.toNat ≤ 90 := h.2
      rw [UInt8.lt_iff_toNat_lt, UInt8.toNat_add]
      have hsum : (b.toNat + 32) % 2 ^ 8 = b.toNat + 32 := Nat.mod_eq_of_lt (by omega)
      change (b.toNat + 32) % 2 ^ 8 < 128
      omega
    · exact hb
  other b hb := by
    have hle : 128 ≤ b.toNat := hb
    rw [asciiLower, if_neg]
    rintro ⟨-, hupper⟩
    have hle' : b.toNat ≤ 90 := hupper
    omega

/-- A text in lower case is its bytes in lower case. -/
theorem utf8_toAsciiLowercase (s : List Char) :
    utf8 (toAsciiLowercase s) = (utf8 s).map asciiLower := by
  induction s with
  | nil => rfl
  | cons c s ih =>
    have hc : String.utf8EncodeChar (if c.isUpper then c.toLower else c) =
        (String.utf8EncodeChar c).map asciiLower := by
      by_cases hascii : c.toNat < 0x80
      · have hall : ∀ n < 0x80, String.utf8EncodeChar
            (if (Char.ofNat n).isUpper then (Char.ofNat n).toLower else Char.ofNat n) =
              (String.utf8EncodeChar (Char.ofNat n)).map asciiLower := by decide
        have hofNat : Char.ofNat c.toNat = c := Char.ofNat_toNat c
        rw [← hofNat]
        exact hall c.toNat hascii
      · have hupper : c.isUpper = false := by
          rw [← Bool.not_eq_true]
          exact fun h ↦ hascii (toNat_of_isUpper h).1
        rw [hupper, if_neg Bool.false_ne_true]
        refine (List.map_id _).symm.trans (List.map_congr_left fun b hb ↦ ?_)
        have hle := le_of_mem_utf8EncodeChar (Nat.le_of_not_lt hascii) hb
        exact (onAscii_asciiLower.other b hle).symm
    rw [utf8_cons, List.map_append, ← ih, ← hc]
    rfl

/-! ### The registry -/

/-- `Entry`. -/
structure Entry where
  /-- The literal in lower case. -/
  key : List Char
  literal : List Char
  token : List Char
  deriving DecidableEq

/-- One literal of a call of `arm`. An entry that has its key is pointed at it and at the token. -/
def armLiteral (token literal : List Char) : List Entry → List Entry
  | [] => [⟨toAsciiLowercase literal, literal, token⟩]
  | e :: entries =>
    if e.key = toAsciiLowercase literal then ⟨e.key, literal, token⟩ :: entries
    else e :: armLiteral token literal entries

/-- The literals that are not blank. -/
def accepted (literals : List (List Char)) : List (List Char) :=
  literals.filter (Plugin.trimSpace · ≠ [])

/-- The closure that a call of `arm` passes to `rcu`. -/
def armAll (token : List Char) (literals : List (List Char)) (entries : List Entry) : List Entry :=
  literals.foldl (fun entries literal ↦ armLiteral token literal entries) entries

/-- Where a call of `arm` is. -/
inductive Phase
  | called
  /-- The snapshot was loaded, which is known by its number. -/
  | loaded (version : Nat) (entries : List Entry)
  | returned
  deriving DecidableEq

/-- A call of `arm`. -/
structure Call where
  token : List Char
  literals : List (List Char)
  phase : Phase

/-- The registry and the calls of `arm`. Every snapshot is another allocation, which the number
stands for. -/
structure Registry where
  version : Nat := 0
  entries : List Entry := []
  calls : List Call := []
  /-- The calls that have swapped, in that order. -/
  swapped : List Nat := []

/-- What happens next, by any thread. -/
inductive Event
  | arm (token : List Char) (literals : List (List Char))
  | load (call : Nat)
  | swap (call : Nat)

def Registry.setPhase (reg : Registry) (i : Nat) (c : Call) (phase : Phase) : Registry :=
  { reg with calls := reg.calls.set i { c with phase := phase } }

/-- One step of one thread. `compare_and_swap` installs the new snapshot if the current one is the
one that was loaded, and returns the current one otherwise. -/
def step (reg : Registry) : Event → Registry
  | .arm token literals =>
    let phase := if accepted literals = [] then .returned else .called
    { reg with calls := reg.calls ++ [⟨token, accepted literals, phase⟩] }
  | .load i =>
    match reg.calls[i]? with
    | some c =>
      if c.phase = .called then reg.setPhase i c (.loaded reg.version reg.entries) else reg
    | none => reg
  | .swap i =>
    match reg.calls[i]? with
    | some c =>
      match c.phase with
      | .loaded version entries =>
        if version = reg.version then
          { reg.setPhase i c .returned with
            version := reg.version + 1
            entries := armAll c.token c.literals entries
            swapped := reg.swapped ++ [i] }
        else reg.setPhase i c (.loaded reg.version reg.entries)
      | _ => reg
    | none => reg

def run (events : List Event) : Registry := events.foldl step {}

/-- What a step can do: nothing, begin a call, load the snapshot, for the first time or again, or
swap the one that was loaded. -/
theorem step_cases (reg : Registry) (e : Event) :
    step reg e = reg ∨ (∃ token literals, e = .arm token literals) ∨ ∃ i c, reg.calls[i]? = some c ∧
        (c.phase ≠ .returned ∧
            step reg e = reg.setPhase i c (.loaded reg.version reg.entries) ∨
          ∃ entries, c.phase = .loaded reg.version entries ∧
            step reg e = { reg.setPhase i c .returned with
              version := reg.version + 1
              entries := armAll c.token c.literals entries
              swapped := reg.swapped ++ [i] }) := by
  cases e with
  | arm token literals => exact Or.inr (Or.inl ⟨token, literals, rfl⟩)
  | load i =>
    rcases hc : reg.calls[i]? with - | c
    · exact Or.inl (by rw [step, hc])
    · rcases hphase : c.phase with - | ⟨version, entries⟩ | -
      · refine Or.inr (Or.inr ⟨i, c, hc, Or.inl ⟨by rw [hphase]; exact nofun, ?_⟩⟩)
        rw [step, hc]
        exact if_pos hphase
      · exact Or.inl (by rw [step, hc]; exact if_neg (by rw [hphase]; exact nofun))
      · exact Or.inl (by rw [step, hc]; exact if_neg (by rw [hphase]; exact nofun))
  | swap i =>
    rcases hc : reg.calls[i]? with - | c
    · exact Or.inl (by rw [step, hc])
    · rcases hphase : c.phase with - | ⟨version, entries⟩ | -
      · exact Or.inl (by simp only [step, hc, hphase])
      · refine Or.inr (Or.inr ⟨i, c, hc, ?_⟩)
        by_cases hversion : version = reg.version
        · refine Or.inr ⟨entries, by rw [hphase, hversion], ?_⟩
          simp only [step, hc, hphase, if_pos hversion]
        · refine Or.inl ⟨by rw [hphase]; exact nofun, ?_⟩
          simp only [step, hc, hphase, if_neg hversion]
      · exact Or.inl (by simp only [step, hc, hphase])

/-- The entry of a key. -/
def lookup (entries : List Entry) (key : List Char) : Option Entry := entries.find? (·.key = key)

theorem lookup_armLiteral (token literal : List Char) (entries : List Entry) (key : List Char) :
    lookup (armLiteral token literal entries) key =
      if toAsciiLowercase literal = key then some ⟨key, literal, token⟩
      else lookup entries key := by
  induction entries with
  | nil =>
    by_cases hkey : toAsciiLowercase literal = key
    · simp [lookup, armLiteral, hkey]
    · simp [lookup, armLiteral, hkey]
  | cons e entries ih =>
    rw [armLiteral]
    by_cases he : e.key = toAsciiLowercase literal
    · rw [if_pos he]
      by_cases hkey : toAsciiLowercase literal = key
      · simp [lookup, he, hkey]
      · simp [lookup, he, hkey]
    · rw [if_neg he]
      by_cases hkey : e.key = key
      · have hne : toAsciiLowercase literal ≠ key := fun h ↦ he (hkey.trans h.symm)
        simp [lookup, hkey, hne]
      · have hcons (es : List Entry) : lookup (e :: es) key = lookup es key := by
          simp [lookup, hkey]
        rw [hcons, hcons, ih]

/-- What the entries of a registry are. -/
structure Keyed (entries : List Entry) : Prop where
  nodup : (entries.map Entry.key).Nodup
  key : ∀ e ∈ entries, e.key = toAsciiLowercase e.literal
  notBlank : ∀ e ∈ entries, Plugin.trimSpace e.literal ≠ []

variable {token literal : List Char}

theorem mem_armLiteral {entries : List Entry} {e : Entry}
    (h : e ∈ armLiteral token literal entries) :
    e = ⟨toAsciiLowercase literal, literal, token⟩ ∨ e ∈ entries := by
  induction entries with
  | nil => exact Or.inl (List.mem_singleton.1 h)
  | cons d entries ih =>
    rw [armLiteral] at h
    split at h
    · next hd =>
      rcases List.mem_cons.1 h with rfl | h
      · exact Or.inl (by rw [hd])
      · exact Or.inr (.tail _ h)
    · rcases List.mem_cons.1 h with rfl | h
      · exact Or.inr (.head _)
      · exact (ih h).imp_right (List.mem_cons_of_mem _)

theorem keys_armLiteral (token literal : List Char) (entries : List Entry) :
    (armLiteral token literal entries).map Entry.key =
      if toAsciiLowercase literal ∈ entries.map Entry.key then entries.map Entry.key
      else entries.map Entry.key ++ [toAsciiLowercase literal] := by
  induction entries with
  | nil => rfl
  | cons e entries ih =>
    rw [armLiteral]
    by_cases he : e.key = toAsciiLowercase literal
    · simp [he]
    · rw [if_neg he, List.map_cons, ih]
      by_cases hmem : toAsciiLowercase literal ∈ entries.map Entry.key
      · have hmem' : toAsciiLowercase literal ∈ (e :: entries).map Entry.key :=
          .tail _ hmem
        rw [if_pos hmem, if_pos hmem', List.map_cons]
      · have hmem' : toAsciiLowercase literal ∉ (e :: entries).map Entry.key := by
          rw [List.map_cons, List.mem_cons, not_or]
          exact ⟨Ne.symm he, hmem⟩
        rw [if_neg hmem, if_neg hmem', List.map_cons, List.cons_append]

theorem Keyed.armLiteral {entries : List Entry} (h : Keyed entries)
    (hblank : Plugin.trimSpace literal ≠ []) : Keyed (armLiteral token literal entries) where
  nodup := by
    rw [keys_armLiteral]
    split
    · exact h.nodup
    · next hnew =>
      refine List.nodup_append.2
        ⟨h.nodup, List.pairwise_singleton _ _, fun key hkey key' hkey' ↦ ?_⟩
      rintro rfl
      rw [List.mem_singleton.1 hkey'] at hkey
      exact hnew hkey
  key e he := by
    rcases mem_armLiteral he with rfl | he
    · rfl
    · exact h.key e he
  notBlank e he := by
    rcases mem_armLiteral he with rfl | he
    · exact hblank
    · exact h.notBlank e he

/-- Literals armed one after the other, each under its token. -/
def armedEntries (armed : List (List Char × List Char)) : List Entry :=
  armed.foldl (fun entries a ↦ armLiteral a.1 a.2 entries) []

/-- The last of them with a key. -/
def lastArmed (armed : List (List Char × List Char)) (key : List Char) : Option Entry :=
  (armed.filter fun a ↦ toAsciiLowercase a.2 = key).getLast?.map fun a ↦ ⟨key, a.2, a.1⟩

/-- **The last one armed wins.** The induction is from the end, where the last one is. -/
theorem lookup_armedEntries (armed : List (List Char × List Char)) (key : List Char) :
    lookup (armedEntries armed) key = lastArmed armed key := by
  induction armed using List.reverseRecOn with
  | nil => rfl
  | append_singleton armed a ih =>
    have hfold : armedEntries (armed ++ [a]) = armLiteral a.1 a.2 (armedEntries armed) := by
      rw [armedEntries, List.foldl_append]
      rfl
    rw [hfold, lookup_armLiteral, ih, lastArmed, lastArmed, List.filter_append]
    by_cases hkey : toAsciiLowercase a.2 = key
    · simp [hkey]
    · simp [hkey]

theorem keyed_armedEntries {armed : List (List Char × List Char)}
    (h : ∀ a ∈ armed, Plugin.trimSpace a.2 ≠ []) : Keyed (armedEntries armed) := by
  induction armed using List.reverseRecOn with
  | nil => exact ⟨List.nodup_nil, nofun, nofun⟩
  | append_singleton armed a ih =>
    have hfold : armedEntries (armed ++ [a]) = armLiteral a.1 a.2 (armedEntries armed) := by
      rw [armedEntries, List.foldl_append]
      rfl
    rw [hfold]
    exact (ih fun b hb ↦ h b (List.mem_append_left _ hb)).armLiteral (h a (by simp))

/-! ### Calls of `arm` at once -/

/-- What a call arms. -/
def Call.armed (c : Call) : List (List Char × List Char) := c.literals.map (c.token, ·)

/-- What was armed, in the order in which it was swapped in. -/
def Registry.armed (reg : Registry) : List (List Char × List Char) :=
  reg.swapped.flatMap fun i ↦ (reg.calls[i]?.map Call.armed).getD []

/-- What holds of the registry and of the calls whatever the threads do. -/
structure Registered (reg : Registry) : Prop where
  entries : reg.entries = armedEntries reg.armed
  /-- A call takes effect once, and not after it has returned. -/
  nodup : reg.swapped.Nodup
  effect : ∀ i c, reg.calls[i]? = some c → (i ∈ reg.swapped ↔ c.phase = .returned ∧ c.literals ≠ [])
  swapped : ∀ i ∈ reg.swapped, i < reg.calls.length
  notBlank : ∀ c ∈ reg.calls, ∀ l ∈ c.literals, Plugin.trimSpace l ≠ []
  /-- No snapshot has the number of another. -/
  loaded : ∀ c ∈ reg.calls, ∀ version entries, c.phase = .loaded version entries →
    c.literals ≠ [] ∧ version ≤ reg.version ∧ (version = reg.version → entries = reg.entries)
  /-- A call that has nothing to arm returns at once. -/
  called : ∀ c ∈ reg.calls, c.phase = .called → c.literals ≠ []

theorem registered_empty : Registered {} := ⟨rfl, List.nodup_nil, nofun, nofun, nofun, nofun, nofun⟩

section Steps

variable {reg : Registry} {i : Nat} {c : Call} {phase : Phase}

theorem mem_setPhase {d : Call} (h : d ∈ (reg.setPhase i c phase).calls) :
    d = { c with phase := phase } ∨ d ∈ reg.calls :=
  (List.mem_or_eq_of_mem_set h).symm

theorem map_armed_setPhase (hc : reg.calls[i]? = some c) (j : Nat) :
    (reg.setPhase i c phase).calls[j]?.map Call.armed = reg.calls[j]?.map Call.armed := by
  rw [Registry.setPhase, List.getElem?_set]
  split
  · next h =>
    subst h
    rw [if_pos (List.getElem?_eq_some_iff.1 hc).1, hc]
    rfl
  · rfl

theorem armed_setPhase (hc : reg.calls[i]? = some c) :
    (reg.setPhase i c phase).armed = reg.armed :=
  List.flatMap_congr fun j _ ↦ congrArg (·.getD []) (map_armed_setPhase hc j)

/-- What a call that swaps adds. -/
theorem armed_swap (hc : reg.calls[i]? = some c) (version : Nat) (entries : List Entry) :
    Registry.armed { reg.setPhase i c phase with
      version := version
      entries := entries
      swapped := reg.swapped ++ [i] } = reg.armed ++ c.armed := by
  have hlast : ((reg.setPhase i c phase).calls[i]?.map Call.armed).getD [] = c.armed := by
    rw [map_armed_setPhase hc, hc]
    rfl
  rw [← armed_setPhase hc, Registry.armed, List.flatMap_append, List.flatMap_singleton, hlast]
  rfl

/-- A call goes on, and the registry stays as it is. -/
theorem Registered.setPhase (h : Registered reg) (hc : reg.calls[i]? = some c)
    (hswapped : i ∉ reg.swapped) (hphase : phase = .loaded reg.version reg.entries)
    (hne : c.literals ≠ []) : Registered (reg.setPhase i c phase) where
  entries := by
    rw [armed_setPhase hc]
    exact h.entries
  nodup := h.nodup
  effect j d hd := by
    have hget : (reg.calls.set i { c with phase := phase })[j]? = some d := hd
    rw [List.getElem?_set] at hget
    split at hget
    · next hij =>
      subst hij
      rw [if_pos (List.getElem?_eq_some_iff.1 hc).1] at hget
      cases hget
      refine iff_of_false hswapped ?_
      rw [hphase]
      exact fun hreturned ↦ nomatch hreturned.1
    · exact h.effect j d hget
  swapped j hj := by
    rw [Registry.setPhase, List.length_set]
    exact h.swapped j hj
  notBlank d hd := by
    rcases mem_setPhase hd with rfl | hd
    · exact h.notBlank c (List.mem_of_getElem? hc)
    · exact h.notBlank d hd
  loaded d hd version entries hloaded := by
    rcases mem_setPhase hd with rfl | hd
    · obtain ⟨rfl, rfl⟩ := Phase.loaded.inj (hphase.symm.trans hloaded)
      exact ⟨hne, Nat.le_refl _, fun _ ↦ rfl⟩
    · exact h.loaded d hd version entries hloaded
  called d hd hcalled := by
    rcases mem_setPhase hd with rfl | hd
    · exact hne
    · exact h.called d hd hcalled

/-- **A call swaps.** What it loaded is what the registry holds, so nothing that was armed in the
meantime is lost. -/
theorem Registered.swap (h : Registered reg) (hc : reg.calls[i]? = some c)
    {entries : List Entry} (hphase : c.phase = .loaded reg.version entries) :
    Registered { reg.setPhase i c .returned with
      version := reg.version + 1
      entries := armAll c.token c.literals entries
      swapped := reg.swapped ++ [i] } where
  entries := by
    have hloaded := h.loaded c (List.mem_of_getElem? hc) _ _ hphase
    have hall : armedEntries (reg.armed ++ c.armed) = armAll c.token c.literals reg.entries := by
      rw [h.entries, armedEntries, List.foldl_append, Call.armed, List.foldl_map]
      rfl
    rw [armed_swap hc, hall, hloaded.2.2 rfl]
  nodup := by
    have hnew : i ∉ reg.swapped := by
      rw [h.effect i c hc, hphase]
      exact fun hreturned ↦ nomatch hreturned.1
    refine List.nodup_append.2 ⟨h.nodup, List.pairwise_singleton _ _, fun j hj k hk ↦ ?_⟩
    rintro rfl
    exact hnew (List.mem_singleton.1 hk ▸ hj)
  effect j d hd := by
    have hget : (reg.calls.set i { c with phase := .returned })[j]? = some d := hd
    rw [List.getElem?_set] at hget
    split at hget
    · next hij =>
      subst hij
      rw [if_pos (List.getElem?_eq_some_iff.1 hc).1] at hget
      cases hget
      exact iff_of_true (by simp) ⟨rfl, (h.loaded c (List.mem_of_getElem? hc) _ _ hphase).1⟩
    · next hij =>
      rw [List.mem_append, List.mem_singleton, or_iff_left (Ne.symm hij)]
      exact h.effect j d hget
  swapped j hj := by
    rw [Registry.setPhase, List.length_set]
    rcases List.mem_append.1 hj with hj | hj
    · exact h.swapped j hj
    · rw [List.mem_singleton.1 hj]
      exact (List.getElem?_eq_some_iff.1 hc).1
  notBlank d hd := by
    rcases mem_setPhase hd with rfl | hd
    · exact h.notBlank c (List.mem_of_getElem? hc)
    · exact h.notBlank d hd
  loaded d hd version entries hloaded := by
    rcases mem_setPhase hd with rfl | hd
    · cases hloaded
    · obtain ⟨hne, hle, -⟩ := h.loaded d hd version entries hloaded
      exact ⟨hne, Nat.le_succ_of_le hle, fun heq ↦ absurd heq (by simp only; omega)⟩
  called d hd hcalled := by
    rcases mem_setPhase hd with rfl | hd
    · cases hcalled
    · exact h.called d hd hcalled

theorem armed_arm (h : ∀ j ∈ reg.swapped, j < reg.calls.length) (new : Call) :
    Registry.armed { reg with calls := reg.calls ++ [new] } = reg.armed :=
  List.flatMap_congr fun j hj ↦ by rw [List.getElem?_append_left (h j hj)]

/-- A call begins, and returns if it has nothing to arm. -/
theorem Registered.arm (h : Registered reg) (token : List Char) (literals : List (List Char)) :
    Registered (step reg (.arm token literals)) := by
  let phase : Phase := if accepted literals = [] then .returned else .called
  let new : Call := ⟨token, accepted literals, phase⟩
  have hmem {d : Call} (hd : d ∈ reg.calls ++ [new]) : d ∈ reg.calls ∨ d = new :=
    (List.mem_append.1 hd).imp_right List.mem_singleton.1
  have hphase : phase = .returned ∧ accepted literals = [] ∨
      phase = .called ∧ accepted literals ≠ [] := by
    by_cases hnil : accepted literals = []
    · exact Or.inl ⟨if_pos hnil, hnil⟩
    · exact Or.inr ⟨if_neg hnil, hnil⟩
  refine ⟨?_, h.nodup, fun j d hd ↦ ?_, fun j hj ↦ ?_, fun d hd ↦ ?_, fun d hd v es hloaded ↦ ?_,
    fun d hd hcalled ↦ ?_⟩
  · exact h.entries.trans (congrArg armedEntries (armed_arm h.swapped new).symm)
  · by_cases hj : j < reg.calls.length
    · rw [step, List.getElem?_append_left hj] at hd
      exact h.effect j d hd
    · have hswapped : j ∉ reg.swapped := fun hmem ↦ hj (h.swapped j hmem)
      obtain rfl : d = new := by
        rw [step, List.getElem?_append_right (Nat.le_of_not_lt hj)] at hd
        exact List.mem_singleton.1 (List.mem_of_getElem? hd)
      refine iff_of_false hswapped fun hreturned ↦ ?_
      rcases hphase with ⟨-, hnil⟩ | ⟨hcalled, -⟩
      · exact hreturned.2 hnil
      · cases hcalled.symm.trans hreturned.1
  · exact Nat.lt_of_lt_of_le (h.swapped j hj) (by simp [step])
  · rcases hmem hd with hd | rfl
    · exact h.notBlank d hd
    · exact fun l hl ↦ of_decide_eq_true (List.mem_filter.1 hl).2
  · rcases hmem hd with hd | rfl
    · exact h.loaded d hd v es hloaded
    · rcases hphase with ⟨hphase, -⟩ | ⟨hphase, -⟩ <;> cases hphase.symm.trans hloaded
  · rcases hmem hd with hd | rfl
    · exact h.called d hd hcalled
    · rcases hphase with ⟨hphase, -⟩ | ⟨-, hne⟩
      · cases hphase.symm.trans hcalled
      · exact hne

theorem registered_step (h : Registered reg) (e : Event) : Registered (step reg e) := by
  obtain hsame | ⟨token, literals, rfl⟩ | ⟨i, c, hc, ⟨hphase, hstep⟩ | ⟨entries, hphase, hstep⟩⟩ :=
    step_cases reg e
  · rwa [hsame]
  · exact h.arm token literals
  · have hmem := List.mem_of_getElem? hc
    rw [hstep]
    refine h.setPhase hc (fun hswapped ↦ hphase ((h.effect i c hc).1 hswapped).1) rfl ?_
    rcases hp : c.phase with - | ⟨version, entries⟩ | -
    · exact h.called c hmem hp
    · exact (h.loaded c hmem _ _ hp).1
    · exact absurd hp hphase
  · rw [hstep]
    exact h.swap hc hphase

/-- **The registry holds what was swapped in, whatever the threads do.** -/
theorem registered_run (events : List Event) : Registered (run events) := by
  induction events using List.reverseRecOn with
  | nil => exact registered_empty
  | append_singleton events e ih =>
    rw [run, List.foldl_append]
    exact registered_step ih e

/-- What was armed stays so, and what is armed later comes after it. -/
theorem armed_prefix_step (h : Registered reg) (e : Event) : reg.armed <+: (step reg e).armed := by
  obtain hsame | ⟨token, literals, rfl⟩ | ⟨i, c, hc, ⟨-, hstep⟩ | ⟨entries, -, hstep⟩⟩ :=
    step_cases reg e
  · rw [hsame]
  · have harmed : (step reg (.arm token literals)).armed = reg.armed := armed_arm h.swapped _
    rw [harmed]
  · rw [hstep, armed_setPhase hc]
  · rw [hstep, armed_swap hc]
    exact List.prefix_append _ _

end Steps

theorem armed_prefix (events later : List Event) :
    (run events).armed <+: (run (events ++ later)).armed := by
  induction later using List.reverseRecOn with
  | nil => rw [List.append_nil]
  | append_singleton later e ih =>
    have hrun : run (events ++ (later ++ [e])) = step (run (events ++ later)) e := by
      rw [run, ← List.append_assoc, List.foldl_append]
      rfl
    rw [hrun]
    exact ih.trans (armed_prefix_step (registered_run _) e)

/-- The registry is keyed, whatever the threads do. -/
theorem keyed_run (events : List Event) : Keyed (run events).entries := by
  have hregistered := registered_run events
  rw [hregistered.entries]
  refine keyed_armedEntries fun a ha ↦ ?_
  obtain ⟨i, hi, hmem⟩ := List.mem_flatMap.1 ha
  rw [List.getElem?_eq_getElem (hregistered.swapped i hi)] at hmem
  obtain ⟨l, hl, rfl⟩ := List.mem_map.1 hmem
  exact hregistered.notBlank _ (List.getElem_mem _) l hl

/-- `Snapshot`, with the automaton as the patterns that it was built of. -/
structure Snapshot where
  entries : List Entry
  automaton : Option (List Bytes)

/-- `Snapshot::build`. -/
def Snapshot.build (entries : List Entry) : Snapshot :=
  if entries = [] then ⟨[], none⟩
  else ⟨entries, some (entries.map fun e ↦ utf8 e.literal)⟩

inductive Cow (α : Type)
  | borrowed (a : α)
  | owned (a : α)

def Cow.get {α : Type} : Cow α → α
  | .borrowed a => a
  | .owned a => a

/-- What a hit adds to `out`, and where `cursor` is after it. -/
def copyHit (entries : List Entry) (input : Bytes) (acc : Option Bytes × Nat) (h : Hit) :
    Option (Option Bytes × Nat) :=
  (slice input acc.2 h.start).bind fun stretch ↦
    entries[h.pattern]?.map fun e ↦ (some (acc.1.getD [] ++ stretch ++ utf8 e.token), h.stop)

/-- `redact_bytes`, by a search. A result of `none` is a panic. -/
def redactBytes (find : List Bytes → Bytes → List Hit) (snapshot : Snapshot) (input : Bytes) :
    Option (Cow Bytes) :=
  match snapshot.automaton with
  | none => some (.borrowed input)
  | some patterns =>
    ((find patterns input).foldlM (copyHit snapshot.entries input) (none, 0)).bind fun acc ↦
      match acc.1 with
      | some buf => (slice input acc.2 input.length).map fun rest ↦ .owned (buf ++ rest)
      | none => some (.borrowed input)

/-- What `redact_str` returns. The bytes of the last are those that are not of a text. -/
inductive RedactedStr
  | borrowed (s : List Char)
  | owned (s : List Char)
  | lossy (bytes : Bytes)

/-- `redact_str`. -/
def redactStr (find : List Bytes → Bytes → List Hit) (snapshot : Snapshot) (input : List Char) :
    Option RedactedStr :=
  (redactBytes find snapshot (utf8 input)).map fun
    | .borrowed _ => .borrowed input
    | .owned bytes =>
      match readUtf8 bytes with
      | some s => .owned s
      | none => .lossy bytes

/-- `RedactingWriter::write`, over a writer with its `write_all`. -/
def write {W ε : Type} (writeAll : W → Bytes → Except ε Unit × W)
    (find : List Bytes → Bytes → List Hit) (snapshot : Snapshot) (inner : W) (buf : Bytes) :
    Option (Except ε Nat × W) :=
  (redactBytes find snapshot buf).map fun redacted ↦
    match writeAll inner redacted.get with
    | (.ok (), inner) => (.ok buf.length, inner)
    | (.error e, inner) => (.error e, inner)

/-- What the documentation of the search says. -/
def LeftmostLongest (find : List Bytes → Bytes → List Hit) : Prop :=
  ∀ patterns input, (∀ p ∈ patterns, p ≠ []) →
    Found asciiLower patterns input 0 (find patterns input)

/-- The bytes of the token that a hit is replaced by. -/
def tokenOf (entries : List Entry) (c : Piece UInt8) : Bytes :=
  (entries[c.pattern]?.map fun e ↦ utf8 e.token).getD []

/-- What is written for some pieces of a line. -/
def redacted (entries : List Entry) (pieces : List (Piece UInt8)) : Bytes :=
  pieces.flatMap fun c ↦ c.skipped ++ tokenOf entries c

/-- The literal stands at a place of a line, in any case. -/
def Stands (literal : List Char) (input : Bytes) (j : Nat) : Prop :=
  Begins asciiLower (utf8 literal) (input.drop j)

/-- What redaction makes of a line: the skipped stretches of its pieces are copied, and the hits are
replaced. -/
structure Redacts (entries : List Entry) (input output : Bytes) (pieces : List (Piece UInt8))
    (last : Bytes) : Prop where
  cut : input = piecesText pieces ++ last
  written : output = redacted entries pieces ++ last
  hit : ∀ c ∈ pieces, ∃ e, entries[c.pattern]? = some e ∧ c.hit.map asciiLower = utf8 e.key
  /-- No copied stretch has an armed literal in it. -/
  copied : ∀ s, (s = last ∨ ∃ c ∈ pieces, c.skipped = s) → ∀ e ∈ entries, ∀ j, ¬Stands e.literal s j
  /-- Where an armed literal starts there is a hit. -/
  replaced : ∀ e ∈ entries, ∀ j, Stands e.literal input j →
    ∃ before c after, pieces = before ++ c :: after ∧
      startOf before c ≤ j ∧ j < startOf before c + c.hit.length
  longest : ∀ before c after, pieces = before ++ c :: after → ∀ e ∈ entries,
    Stands e.literal input (startOf before c) → (utf8 e.literal).length ≤ c.hit.length

section Line

variable {entries : List Entry}

theorem Keyed.ne_nil (h : Keyed entries) {p : Bytes}
    (hp : p ∈ entries.map fun e ↦ utf8 e.literal) : p ≠ [] := by
  obtain ⟨e, he, rfl⟩ := List.mem_map.1 hp
  refine utf8_ne_nil fun hnil ↦ h.notBlank e he ?_
  rw [hnil]
  rfl

variable {pieces : List (Piece UInt8)}

/-- **A line that a search cuts is redacted.** -/
theorem redacts_of_cuts (h : Keyed entries) {input last : Bytes}
    (hcuts : Cuts asciiLower (entries.map fun e ↦ utf8 e.literal) input pieces last) :
    Redacts entries input (redacted entries pieces ++ last) pieces last where
  cut := hcuts.text
  written := rfl
  hit c hc := by
    obtain ⟨p, hp, hsame⟩ := hcuts.exists_pattern hc
    rw [List.getElem?_map] at hp
    obtain ⟨e, he, rfl⟩ := Option.map_eq_some_iff.1 hp
    exact ⟨e, he, by rw [hsame, h.key e (List.mem_of_getElem? he), utf8_toAsciiLowercase]⟩
  copied s hs e he j := hcuts.not_begins (fun p hp ↦ h.ne_nil hp) hs j (List.mem_map_of_mem he)
  replaced e he j hj := hcuts.exists_hit (List.mem_map_of_mem he) hj
  longest before c after hpieces e he hj := hcuts.longest hpieces (List.mem_map_of_mem he) hj

theorem slice_append (before stretch after : Bytes) :
    slice (before ++ (stretch ++ after)) before.length (before.length + stretch.length) =
      some stretch := by
  have hle : before.length + stretch.length ≤ (before ++ (stretch ++ after)).length := by
    simp only [List.length_append]
    omega
  rw [slice_eq (Nat.le_add_right _ _) hle, ← List.append_assoc, ← List.length_append,
    List.take_left, List.drop_left]

/-- **The loop copies what is skipped and replaces what is hit.** The induction is on the pieces
that are left, and `before` is what of the line they follow. -/
theorem foldlM_copyHit (hpieces : ∀ c ∈ pieces, ∃ e, entries[c.pattern]? = some e)
    (before last : Bytes) (out : Option Bytes) :
    (hitsOf before.length pieces).foldlM
        (copyHit entries (before ++ (piecesText pieces ++ last))) (out, before.length) =
      some (if pieces = [] then out else some (out.getD [] ++ redacted entries pieces),
        (before ++ piecesText pieces).length) := by
  induction pieces generalizing before out with
  | nil => simp [hitsOf, piecesText]
  | cons c pieces ih =>
    obtain ⟨e, he⟩ := hpieces c (.head _)
    have htext : before ++ (piecesText (c :: pieces) ++ last) =
        before ++ (c.skipped ++ (c.hit ++ (piecesText pieces ++ last))) := by
      simp [piecesText]
    have hmore : before ++ (piecesText (c :: pieces) ++ last) =
        (before ++ c.skipped ++ c.hit) ++ (piecesText pieces ++ last) := by
      simp [piecesText]
    have hstart : (before ++ c.skipped ++ c.hit).length =
        before.length + c.skipped.length + c.hit.length := by
      simp only [List.length_append]
    have hcopy : copyHit entries (before ++ (piecesText (c :: pieces) ++ last)) (out, before.length)
        ⟨c.pattern, before.length + c.skipped.length,
          before.length + c.skipped.length + c.hit.length⟩ =
        some (some (out.getD [] ++ c.skipped ++ utf8 e.token),
          (before ++ c.skipped ++ c.hit).length) := by
      rw [copyHit, htext, slice_append, Option.bind_some, he, hstart]
      rfl
    have htoken : tokenOf entries c = utf8 e.token := by
      rw [tokenOf, he]
      rfl
    have hrest := ih (fun d hd ↦ hpieces d (.tail _ hd))
      (before ++ c.skipped ++ c.hit) (some (out.getD [] ++ c.skipped ++ utf8 e.token))
    rw [hitsOf, List.foldlM_cons, hcopy, Option.bind_eq_bind, Option.bind_some, ← hstart, hmore,
      hrest, if_neg (List.cons_ne_nil c pieces)]
    by_cases hnil : pieces = []
    · simp [hnil, redacted, htoken, piecesText]
    · simp [hnil, redacted, htoken, piecesText]

/-- **A line is written as the search cuts it.** -/
theorem redactBytes_of_cuts {find : List Bytes → Bytes → List Hit} {input last : Bytes}
    (hne : entries ≠ []) (hhits : find (entries.map fun e ↦ utf8 e.literal) input = hitsOf 0 pieces)
    (hpieces : ∀ c ∈ pieces, ∃ e, entries[c.pattern]? = some e)
    (htext : input = piecesText pieces ++ last) :
    redactBytes find (Snapshot.build entries) input =
      some (if pieces = [] then .borrowed input else .owned (redacted entries pieces ++ last)) := by
  have hloop := foldlM_copyHit hpieces [] last none
  rw [List.nil_append, List.nil_append, ← htext, List.length_nil] at hloop
  have hrest : slice input (piecesText pieces).length input.length = some last := by
    have hlength : input.length = (piecesText pieces).length + last.length := by
      rw [htext, List.length_append]
    have hslice := slice_append (piecesText pieces) last []
    rwa [List.append_nil, ← htext, ← hlength] at hslice
  rw [redactBytes, Snapshot.build, if_neg hne]
  dsimp only
  rw [hhits, hloop, Option.bind_some]
  by_cases hnil : pieces = []
  · simp only [if_pos hnil]
  · simp only [if_neg hnil]
    rw [hrest]
    rfl

/-- **A text stays a text.** The induction is on the pieces: a hit is a literal but for the case of
letters, so it is a slice of the text, and what is before and behind it are texts. -/
theorem exists_utf8_redacted (h : Keyed entries)
    (hhit : ∀ c ∈ pieces, ∃ e, entries[c.pattern]? = some e ∧ c.hit.map asciiLower = utf8 e.key)
    {s : List Char} {last : Bytes} (hs : utf8 s = piecesText pieces ++ last) :
    ∃ t, utf8 t = redacted entries pieces ++ last := by
  induction pieces generalizing s with
  | nil => exact ⟨s, hs⟩
  | cons c pieces ih =>
    obtain ⟨e, he, hsame⟩ := hhit c (.head _)
    have hmem := List.mem_of_getElem? he
    have hliteral : e.literal ≠ [] := by
      intro hnil
      exact h.notBlank e hmem (by rw [hnil]; rfl)
    have hmap : c.hit.map asciiLower = (utf8 e.literal).map asciiLower := by
      rw [hsame, h.key e hmem, utf8_toAsciiLowercase]
    have hcut : utf8 s = c.skipped ++ c.hit ++ (piecesText pieces ++ last) := by
      rw [hs]
      simp [piecesText]
    obtain ⟨a, b, rest, -, ha, -, hrest⟩ := exists_slice onAscii_asciiLower hliteral hcut hmap
    obtain ⟨t, ht⟩ := ih (fun d hd ↦ hhit d (.tail _ hd)) hrest
    refine ⟨a ++ e.token ++ t, ?_⟩
    have htoken : tokenOf entries c = utf8 e.token := by
      rw [tokenOf, he]
      rfl
    rw [utf8_append, utf8_append, ha, ht]
    simp [redacted, htoken]

/-- **Every line is redacted**, by whatever search meets the documentation. -/
theorem exists_redacts {find : List Bytes → Bytes → List Hit} (hfind : LeftmostLongest find)
    (h : Keyed entries) (input : Bytes) :
    ∃ pieces last, Redacts entries input (redacted entries pieces ++ last) pieces last ∧
      redactBytes find (Snapshot.build entries) input = some (if pieces = [] then .borrowed input
          else .owned (redacted entries pieces ++ last)) := by
  by_cases hne : entries = []
  · subst hne
    exact ⟨[], input, redacts_of_cuts h (.done fun j p hp ↦ absurd hp List.not_mem_nil), rfl⟩
  · have hliterals := fun p hp ↦ h.ne_nil (p := p) hp
    have hfound := hfind _ input hliterals
    obtain ⟨pieces, last, hhits, hcuts⟩ := cuts_of_found hliterals hfound (Nat.zero_le _)
    have hredacts := redacts_of_cuts h hcuts
    refine ⟨pieces, last, hredacts, redactBytes_of_cuts hne hhits (fun c hc ↦ ?_) hcuts.text⟩
    obtain ⟨e, he, -⟩ := hredacts.hit c hc
    exact ⟨e, he⟩

/-- There are no hits where no armed literal stands. -/
theorem Redacts.pieces_eq_nil_iff (h : Keyed entries) {input output last : Bytes}
    (hredacts : Redacts entries input output pieces last) :
    pieces = [] ↔ ∀ e ∈ entries, ∀ j, ¬Stands e.literal input j := by
  constructor
  · rintro rfl e he j hj
    obtain ⟨before, c, after, hpieces, -⟩ := hredacts.replaced e he j hj
    simp at hpieces
  · intro hnone
    by_contra hne
    obtain ⟨c, pieces, rfl⟩ := List.exists_cons_of_ne_nil hne
    obtain ⟨e, he, hsame⟩ := hredacts.hit c (.head _)
    have hmem := List.mem_of_getElem? he
    refine hnone e hmem c.skipped.length ?_
    have hbegins : Begins asciiLower (utf8 e.literal) c.hit :=
      begins_of_map_eq (by rw [hsame, h.key e hmem, utf8_toAsciiLowercase])
    have hdrop : input.drop c.skipped.length = c.hit ++ (piecesText pieces ++ last) := by
      rw [hredacts.cut]
      simp [piecesText]
    rw [Stands, hdrop]
    exact hbegins.append _

end Line

/-- What redaction does after any calls of `arm`, by whatever threads: what the registry holds, what
a line is made of, and what the callers get for a text and for a line that is written. -/
theorem redaction_complete {find : List Bytes → Bytes → List Hit} (hfind : LeftmostLongest find)
    (events : List Event) :
    Registered (run events) ∧ (∀ later, (run events).armed <+: (run (events ++ later)).armed) ∧
    Keyed (run events).entries ∧
    (∀ key, lookup (run events).entries key = lastArmed (run events).armed key) ∧
    ∀ input, ∃ output pieces last, Redacts (run events).entries input output pieces last ∧
      (pieces = [] ↔ ∀ e ∈ (run events).entries, ∀ j, ¬Stands e.literal input j) ∧
      redactBytes find (Snapshot.build (run events).entries) input =
        some (if pieces = [] then .borrowed input else .owned output) ∧
      (∀ s, utf8 s = input → ∃ t, utf8 t = output ∧
        redactStr find (Snapshot.build (run events).entries) s =
          some (if pieces = [] then .borrowed s else .owned t)) ∧
      ∀ (W ε : Type) (writeAll : W → Bytes → Except ε Unit × W) (inner : W), ∃ result inner',
          write writeAll find (Snapshot.build (run events).entries) inner input =
            some (result, inner') ∧
          writeAll inner output = (result.map fun _ ↦ (), inner') ∧
          ∀ n, result = .ok n → n = input.length := by
  have hregistered := registered_run events
  have hkeyed := keyed_run events
  refine ⟨hregistered, armed_prefix events, hkeyed, fun key ↦ ?_, fun input ↦ ?_⟩
  · rw [hregistered.entries]
    exact lookup_armedEntries _ key
  obtain ⟨pieces, last, hredacts, hbytes⟩ := exists_redacts hfind hkeyed input
  refine ⟨_, pieces, last, hredacts, hredacts.pieces_eq_nil_iff hkeyed, hbytes, ?_, ?_⟩
  · rintro s rfl
    obtain ⟨t, ht⟩ := exists_utf8_redacted hkeyed hredacts.hit hredacts.cut
    refine ⟨t, ht, ?_⟩
    rw [redactStr, hbytes, Option.map_some]
    split_ifs with hnil
    · rfl
    · dsimp only
      rw [← ht, readUtf8_utf8]
  · intro W ε writeAll inner
    have hget : (if pieces = [] then Cow.borrowed input
        else .owned (redacted (run events).entries pieces ++ last)).get =
          redacted (run events).entries pieces ++ last := by
      split_ifs with hnil
      · exact hredacts.cut.trans (by rw [hnil]; rfl)
      · rfl
    rw [write, hbytes, Option.map_some, hget]
    rcases writeAll inner (redacted (run events).entries pieces ++ last) with ⟨⟨e⟩ | ⟨⟨⟩⟩, inner'⟩
    · exact ⟨.error e, inner', rfl, rfl, nofun⟩
    · exact ⟨.ok input.length, inner', rfl, rfl, fun n hn ↦ (Except.ok.inj hn).symm⟩

/-- An address and a longer one, the shorter armed anew in between by a call that lost the race. -/
def sampleArms : List Event :=
  [.arm "<server:recovered>".toList ["10.0.0.1".toList, " ".toList], .load 0,
    .arm "<server:b>".toList ["10.0.0.12".toList], .load 1, .swap 1, .swap 0, .swap 0,
    .arm "<server:a>".toList ["10.0.0.1".toList], .load 2, .swap 2]

theorem sampleArms_complete :
    (LeftmostLongest fun patterns input ↦ findIter asciiLower patterns input) ∧
    (lookup (run sampleArms).entries "10.0.0.1".toList).map Entry.token =
      some "<server:a>".toList ∧
    ∃ output pieces last,
      Redacts (run sampleArms).entries (utf8 "to 10.0.0.12".toList) output pieces last := by
  have hfind : LeftmostLongest fun patterns input ↦ findIter asciiLower patterns input :=
    fun _ input hne ↦ found_findIter hne input
  obtain ⟨-, -, -, hlookup, hline⟩ := redaction_complete hfind sampleArms
  obtain ⟨output, pieces, last, hredacts, -⟩ := hline (utf8 "to 10.0.0.12".toList)
  exact ⟨hfind, by rw [hlookup]; decide, output, pieces, last, hredacts⟩

end Hole.Logging
