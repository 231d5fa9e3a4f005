import Hole.State.OnDisk
import Mathlib.Data.List.Basic
import Mathlib.Data.List.Range

/-!
# The chain of schemas

How the bytes of a state file are read (`versioned_file/frame.rs`, `chain.rs`, and `from_read` of
`loaded.rs`): the version on its own, from the entries of the object that the bytes are, and then
the payload by the schema of that version, which every later schema upgrades. `serde_json` is a
parameter: what it finds in the bytes (`Json`), and what it makes of them for a schema.

A chain that is linked has one schema for each version above its floor, and `Path` has the upgrades
from there, in order. `fromRead_classifies` says what a file is read as, and that the assertions of
the code hold. `classify_eq_fromRead` connects the reading to `Schema.classify`, which the other
modules have for it.
-/

namespace Hole.State.Framed

open Text

/-- `ParseFailure`. -/
structure ParseFailure where
  kind : String
  line : Nat
  column : Nat

/-- `ParseFailure::framing`. -/
def ParseFailure.framing (reason : String) : ParseFailure := ⟨reason, 0, 0⟩

/-! ### The version -/

/-- What `serde_json` finds in bytes. -/
structure Json where
  /-- The keys of the object and the texts of their values, in order, up to where the bytes fail to
  be one object with nothing behind it. -/
  object : Bytes → List (List Char × List Char) × Option ParseFailure
  /-- The error of a second entry with one key. -/
  duplicate : Bytes → ParseFailure

/-- `KEY`. -/
def key : List Char := "version".toList

/-- `IntErrorKind`. -/
inductive IntErrorKind
  | empty
  | invalidDigit
  | posOverflow
  deriving DecidableEq

/-- The loop of `u32::from_str`. -/
def parseDigits : Nat → List Char → Except IntErrorKind Nat
  | n, [] => .ok n
  | n, c :: cs =>
    match readDigit 10 c with
    | none => .error .invalidDigit
    | some d => if 2 ^ 32 ≤ 10 * n + d then .error .posOverflow else parseDigits (10 * n + d) cs

/-- `u32::from_str`. -/
def parseU32 : List Char → Except IntErrorKind Nat
  | [] => .error .empty
  | ['+'] => .error .invalidDigit
  | '+' :: cs => parseDigits 0 cs
  | cs => parseDigits 0 cs

/-- `NOT_POSITIVE`. -/
def notPositive : ParseFailure := .framing "version is not a positive integer"

/-- `version_of`; nothing where its assertion fails. -/
def versionOf (token : List Char) : Option (Except ParseFailure Version) :=
  if token = [] ∨ ¬token.all Char.isDigit then some (.error notPositive)
  else
    match parseU32 token with
    | .ok 0 => some (.error notPositive)
    | .ok n => some (.ok (.known n))
    | .error kind => if kind = .posOverflow then some (.ok .beyondU32) else none

/-- `VersionOnly::visit_map`, from an entry on. -/
def visitMap (duplicate : ParseFailure) : Option (List Char) → List (List Char × List Char) →
    Except ParseFailure (Option (List Char))
  | version, [] => .ok version
  | version, (k, value) :: rest =>
    if k ≠ key then visitMap duplicate version rest
    else if version.isSome then .error duplicate
    else visitMap duplicate (some value) rest

/-- The text of the version that an object has, if it has one. -/
def findVersion (json : Json) (bytes : Bytes) : Except ParseFailure (Option (List Char)) :=
  match visitMap (json.duplicate bytes) none (json.object bytes).1 with
  | .error failure => .error failure
  | .ok found =>
    match (json.object bytes).2 with
    | some failure => .error failure
    | none => .ok found

/-- `read_version`. -/
def readVersion (json : Json) (bytes : Bytes) (unversionedAs : Option Nat) :
    Option (Except ParseFailure Version) :=
  match findVersion json bytes, unversionedAs with
  | .error failure, _ => some (.error failure)
  | .ok (some token), _ => versionOf token
  | .ok none, some default => some (.ok (.known default))
  | .ok none, none => some (.error (.framing "no version"))

/-- `Version::within`. -/
def within (current : Nat) : Version → Except (Option Nat) Nat
  | .known found => if found ≤ current then .ok found else .error (some found)
  | .beyondU32 => .error none

/-! ### The chain -/

/-- `ChainError`. -/
inductive ChainError
  | obsolete
  | shape (failure : ParseFailure)

/-- `Chain`: a floor, or a `Schema` on a chain, with what `serde_json::from_slice` makes of bytes
for it. -/
inductive Chain : Type → Type 1
  | obsolete (below : Nat) : Chain Empty
  | schema {π σ : Type} (version : Nat) (prev : Chain π) (fromSlice : Bytes → Except ParseFailure σ)
      (upgrade : π → σ) : Chain σ

namespace Chain

variable {π σ : Type}

/-- `TOP`. -/
def top : Chain σ → Nat
  | .obsolete below => below
  | .schema version _ _ _ => version

/-- The version at its bottom. -/
def floor {σ : Type} : Chain σ → Nat
  | .obsolete below => below
  | .schema _ prev _ _ => prev.floor

/-- `LINKED`. -/
def Linked {σ : Type} : Chain σ → Prop
  | .obsolete _ => True
  | .schema version prev _ _ => version = prev.top + 1 ∧ prev.Linked

/-- `decode`; nothing where an assertion fails. -/
def decode {σ : Type} (found : Nat) (bytes : Bytes) : Chain σ → Option (Except ChainError σ)
  | .obsolete below => if found ≤ below then some (.error .obsolete) else none
  | .schema version prev fromSlice upgrade =>
    if found = version then
      match fromSlice bytes with
      | .ok value => some (.ok value)
      | .error failure => some (.error (.shape failure))
    else if found < version then (prev.decode found bytes).map fun r ↦ r.map upgrade
    else none

/-- A chain on top of another: the versions of its schemas, in order, and their upgrades, one after
the other. -/
inductive Path (c : Chain π) : {σ : Type} → Chain σ → List Nat → (π → σ) → Prop
  | here : Path c c [] id
  | upgraded {ρ σ : Type} {prev : Chain ρ} {versions : List Nat} {f : π → ρ}
      (h : Path c prev versions f) (version : Nat) (fromSlice : Bytes → Except ParseFailure σ)
      (upgrade : ρ → σ) :
      Path c (.schema version prev fromSlice upgrade) (versions ++ [version]) (upgrade ∘ f)

theorem floor_le_top {σ : Type} {chain : Chain σ} (h : chain.Linked) : chain.floor ≤ chain.top := by
  induction chain with
  | obsolete below => exact Nat.le_refl _
  | schema version prev fromSlice upgrade ih =>
    obtain ⟨hversion, hprev⟩ := h
    exact (ih hprev).trans (by rw [top, hversion]; exact Nat.le_succ _)

variable {found : Nat}

/-- What is at most the floor is obsolete. -/
theorem decode_of_le_floor {σ : Type} {chain : Chain σ} (h : chain.Linked)
    (hfound : found ≤ chain.floor) (bytes : Bytes) :
    chain.decode found bytes = some (.error .obsolete) := by
  induction chain with
  | obsolete below => exact if_pos hfound
  | schema version prev fromSlice upgrade ih =>
    obtain ⟨hversion, hprev⟩ := h
    have hle : found ≤ prev.top := hfound.trans (floor_le_top hprev)
    rw [decode, if_neg (by omega), if_pos (by omega), ih hprev hfound]
    rfl

theorem Path.top_le {c : Chain π} {chain : Chain σ} {versions : List Nat} {f : π → σ}
    (h : Path c chain versions f) (hlinked : chain.Linked) : c.top ≤ chain.top := by
  induction h with
  | here => exact Nat.le_refl _
  | upgraded h version fromSlice upgrade ih =>
    obtain ⟨hversion, hprev⟩ := hlinked
    exact (ih hprev).trans (by rw [top, hversion]; exact Nat.le_succ _)

/-- What a chain decodes below another is what that decodes, upgraded. -/
theorem decode_of_path {c : Chain π} {chain : Chain σ} {versions : List Nat} {f : π → σ}
    (h : Path c chain versions f) (hlinked : chain.Linked)
    (hfound : found ≤ c.top) (bytes : Bytes) :
    chain.decode found bytes = (c.decode found bytes).map fun r ↦ r.map f := by
  induction h with
  | here =>
    cases c.decode found bytes with
    | none => rfl
    | some r => cases r <;> rfl
  | upgraded h version fromSlice upgrade ih =>
    obtain ⟨hversion, hprev⟩ := hlinked
    have hle := hfound.trans (h.top_le hprev)
    rw [decode, if_neg (by omega), if_pos (by omega), ih hprev, Option.map_map]
    congr 1
    funext r
    cases r <;> rfl

/-- The schema of a version in a chain, and the upgrades of all later ones, in order. -/
def SchemaOf {π σ : Type} (chain : Chain σ) (found : Nat)
    (fromSlice : Bytes → Except ParseFailure π) (f : π → σ) : Prop :=
  ∃ (ρ : Type) (prev : Chain ρ) (upgrade : ρ → π), Path (.schema found prev fromSlice upgrade) chain
      (List.range' (found + 1) (chain.top - found)) f

/-- Above the floor each version has its schema. -/
theorem exists_schemaOf {σ : Type} {chain : Chain σ} (h : chain.Linked)
    (hfloor : chain.floor < found) (htop : found ≤ chain.top) :
    ∃ (π : Type) (fromSlice : Bytes → Except ParseFailure π) (f : π → σ),
      chain.SchemaOf found fromSlice f := by
  induction chain with
  | obsolete below => exact absurd hfloor (Nat.not_lt_of_le htop)
  | schema version prev fromSlice upgrade ih =>
    obtain ⟨hversion, hprev⟩ := h
    change found ≤ version at htop
    obtain rfl | hlt := Nat.eq_or_lt_of_le htop
    · refine ⟨_, fromSlice, id, _, prev, upgrade, ?_⟩
      rw [top, Nat.sub_self, List.range'_zero]
      exact .here
    · obtain ⟨π, slice, f, ρ, below, up, hpath⟩ := ih hprev hfloor (by omega)
      refine ⟨π, slice, upgrade ∘ f, ρ, below, up, ?_⟩
      have hrange : List.range' (found + 1) (version - found) =
          List.range' (found + 1) (prev.top - found) ++ [version] := by
        rw [show version - found = prev.top - found + 1 by omega, List.range'_concat]
        congr 2
        omega
      rw [top, hrange]
      exact hpath.upgraded version fromSlice upgrade

/-- What is read by the schema of a version, and upgraded. -/
def upgraded {π σ : Type} (f : π → σ) : Except ParseFailure π → Except ChainError σ
  | .ok value => .ok (f value)
  | .error failure => .error (.shape failure)

theorem decode_of_schemaOf {π σ : Type} {chain : Chain σ} (h : chain.Linked)
    {fromSlice : Bytes → Except ParseFailure π} {f : π → σ}
    (hschema : chain.SchemaOf found fromSlice f) (bytes : Bytes) : chain.decode found bytes = some
    (upgraded f (fromSlice bytes)) := by
  obtain ⟨ρ, prev, upgrade, hpath⟩ := hschema
  have hfound : found ≤ (schema found prev fromSlice upgrade).top := Nat.le_refl _
  rw [decode_of_path hpath h hfound, decode, if_pos rfl]
  cases fromSlice bytes <;> rfl

/-- A version has its own number above the floor. -/
theorem lt_of_schemaOf {π σ : Type} {chain : Chain σ} (h : chain.Linked)
    {fromSlice : Bytes → Except ParseFailure π} {f : π → σ}
    (hschema : chain.SchemaOf found fromSlice f) : chain.floor < found ∧ found ≤ chain.top := by
  obtain ⟨ρ, prev, upgrade, hpath⟩ := hschema
  refine ⟨?_, hpath.top_le h⟩
  by_contra hle
  obtain ⟨empty⟩ : Nonempty Bytes := ⟨[]⟩
  have hobsolete := decode_of_le_floor h (Nat.le_of_not_lt hle) empty
  rw [decode_of_schemaOf h ⟨ρ, prev, upgrade, hpath⟩] at hobsolete
  cases hslice : fromSlice empty with
  | ok value => rw [hslice] at hobsolete; cases hobsolete
  | error failure => rw [hslice] at hobsolete; cases hobsolete

/-- No version that a chain goes up to trips an assertion. -/
theorem decode_ne_none {σ : Type} {chain : Chain σ} (h : chain.Linked) (hfound : found ≤ chain.top)
    (bytes : Bytes) : chain.decode found bytes ≠ none := by
  obtain hfloor | hfloor := Nat.lt_or_ge chain.floor found
  · obtain ⟨π, fromSlice, f, hschema⟩ := exists_schemaOf h hfloor hfound
    rw [decode_of_schemaOf h hschema]
    exact Option.some_ne_none _
  · rw [decode_of_le_floor h hfloor]
    exact Option.some_ne_none _

end Chain

/-! ### Reading -/

/-- `VersionedState`: a schema with what a file without a version is. It builds only if its chain is
linked, and its versions are of 32 bits. -/
structure VersionedState (σ : Type) where
  Prev : Type
  version : Nat
  prev : Chain Prev
  fromSlice : Bytes → Except ParseFailure σ
  upgrade : Prev → σ
  unversionedAs : Option Nat
  linked : (Chain.schema version prev fromSlice upgrade).Linked
  version_lt : version < 2 ^ 32
  unversioned_lt : ∀ n, unversionedAs = some n → n < 2 ^ 32

/-- The chain of a schema. -/
def VersionedState.chain {σ : Type} (S : VersionedState σ) : Chain σ :=
  .schema S.version S.prev S.fromSlice S.upgrade

/-- `NoteV1`, of the fixtures. -/
structure NoteV1 where
  title : String

/-- `NoteV2`. -/
structure NoteV2 where
  title : String
  tags : List String

/-- A note of version 1, on disk. -/
def noteText : Bytes :=
  "\x7b\n  \"version\": 1,\n  \"title\": \"t\"\n\x7d".toList.map fun c ↦ c.toNat.toUInt8

/-- The reader, as it is on that text. -/
def noteJson : Json where
  object bytes :=
    if bytes = noteText then ([(key, ['1']), ("title".toList, "\"t\"".toList)], none)
    else ([], some (.framing "expected value"))
  duplicate _ := .framing "duplicate field"

/-- The notes, up to their second version. -/
def note : VersionedState NoteV2 where
  Prev := NoteV1
  version := 2
  prev := .schema 1 (.obsolete 0) (fun bytes ↦
    if bytes = noteText then .ok ⟨"t"⟩ else .error (.framing "expected value")) Empty.elim
  fromSlice _ := .error (.framing "missing field")
  upgrade prev := ⟨prev.title, ["imported"]⟩
  unversionedAs := none
  linked := ⟨rfl, rfl, trivial⟩
  version_lt := by decide
  unversioned_lt := nofun

/-- `Loaded`, of a read that gave its bytes. -/
inductive Loaded (σ : Type)
  | corrupt (failure : ParseFailure) (raw : Bytes)
  | obsolete (found : Nat) (raw : Bytes)
  | newer (found : Option Nat) (raw : Bytes)
  | current (value : σ) (found : Nat)

section Read

variable {σ : Type} (json : Json) (S : VersionedState σ)

/-- `Loaded::from_read`, of a read that gave its bytes; nothing where an assertion fails. -/
def fromRead (bytes : Bytes) : Option (Loaded σ) :=
  match readVersion json bytes S.unversionedAs with
  | none => none
  | some (.error failure) => some (.corrupt failure bytes)
  | some (.ok version) =>
    match within S.version version with
    | .error found => some (.newer found bytes)
    | .ok found =>
      match S.chain.decode found bytes with
      | none => none
      | some (.ok value) => some (.current value found)
      | some (.error .obsolete) => some (.obsolete found bytes)
      | some (.error (.shape failure)) => some (.corrupt failure bytes)

/-- `read_back`; nothing where an assertion fails, or what is `unreachable!` is reached. -/
def readBack (bytes : Bytes) : Option (Except ParseFailure Unit) :=
  match readVersion json bytes none with
  | none => none
  | some (.error failure) => some (.error failure)
  | some (.ok version) =>
    if version = .known S.version then
      match S.chain.decode S.version bytes with
      | none => none
      | some (.ok _) => some (.ok ())
      | some (.error (.shape failure)) => some (.error failure)
      | some (.error .obsolete) => none
    else some (.error (.framing "version does not read back"))

end Read

/-! ### What a version is -/

/-- The number that a token of digits is. -/
def IsNumber (token : List Char) (n : Nat) : Prop :=
  token ≠ [] ∧ token.all Char.isDigit = true ∧ readNat 10 token = some n

/-- The digits of a decimal numeral. -/
theorem readDigit_of_isDigit {c : Char} (h : c.isDigit = true) : ∃ d, readDigit 10 c = some d := by
  have hc : 48 ≤ c.toNat ∧ c.toNat ≤ 57 := by
    simpa [Char.isDigit, UInt32.le_iff_toNat_le] using h
  have hchar : (c.toNat - 48).digitChar = c := by
    have hall : ∀ d < 10, (d.digitChar).toNat = 48 + d := by decide
    apply Char.ext
    apply UInt32.toNat_inj.1
    exact (hall (c.toNat - 48) (by omega)).trans (show 48 + (c.toNat - 48) = c.toNat by omega)
  have hread := readDigit_digitChar (show 10 ≤ 16 by decide) (show c.toNat - 48 < 10 by omega)
  rw [hchar] at hread
  exact ⟨_, hread⟩

/-- Digits are a number. -/
theorem foldlM_of_isDigit {cs : List Char} (h : cs.all Char.isDigit = true) (acc : Nat) :
    ∃ n, acc ≤ n ∧ cs.foldlM (fun n d ↦ (readDigit 10 d).map (10 * n + ·)) acc = some n := by
  induction cs generalizing acc with
  | nil => exact ⟨acc, Nat.le_refl _, rfl⟩
  | cons c cs ih =>
    rw [List.all_cons, Bool.and_eq_true] at h
    obtain ⟨d, hd⟩ := readDigit_of_isDigit h.1
    obtain ⟨n, hle, hn⟩ := ih h.2 (10 * acc + d)
    exact ⟨n, by omega, by rw [List.foldlM_cons, hd]; exact hn⟩

/-- The loop of `u32::from_str` over digits: the number, unless that is too large. -/
theorem parseDigits_eq {cs : List Char} (h : cs.all Char.isDigit = true) {acc n : Nat}
    (hacc : acc < 2 ^ 32)
    (hn : cs.foldlM (fun n d ↦ (readDigit 10 d).map (10 * n + ·)) acc = some n) :
    parseDigits acc cs = if n < 2 ^ 32 then .ok n else .error .posOverflow := by
  induction cs generalizing acc with
  | nil =>
    cases hn
    rw [parseDigits, if_pos hacc]
  | cons c cs ih =>
    rw [List.all_cons, Bool.and_eq_true] at h
    obtain ⟨d, hd⟩ := readDigit_of_isDigit h.1
    rw [List.foldlM_cons, hd] at hn
    change cs.foldlM _ (10 * acc + d) = some n at hn
    rw [parseDigits, hd]
    dsimp only
    split
    · next hbig =>
      obtain ⟨m, hle, hm⟩ := foldlM_of_isDigit h.2 (10 * acc + d)
      obtain rfl := Option.mem_unique hm hn
      rw [if_neg (by omega)]
    · next hsmall => exact ih h.2 (by omega) hn

theorem parseU32_eq {token : List Char} {n : Nat} (h : IsNumber token n) :
    parseU32 token = if n < 2 ^ 32 then .ok n else .error .posOverflow := by
  obtain ⟨hne, hdigits, hread⟩ := h
  obtain ⟨c, cs, rfl⟩ := List.exists_cons_of_ne_nil hne
  have hplus : c ≠ '+' := by
    rintro rfl
    cases hdigits
  have hparse : parseU32 (c :: cs) = parseDigits 0 (c :: cs) := by
    rw [parseU32]
    · exact nofun
    · exact fun h ↦ hplus (List.cons_eq_cons.1 h).1
    · exact fun _ h ↦ hplus (List.cons_eq_cons.1 h).1
  rw [hparse]
  exact parseDigits_eq hdigits (by decide) hread

/-- What a version of 32 bits is read as, and one of more. -/
def versionFor (n : Nat) : Version := if n < 2 ^ 32 then .known n else .beyondU32

/-- A token is that of a version if and only if it is a positive number. -/
theorem versionOf_eq (token : List Char) :
    (∃ n, IsNumber token n ∧ 0 < n ∧ versionOf token = some (.ok (versionFor n))) ∨
      (¬∃ n, IsNumber token n ∧ 0 < n) ∧ versionOf token = some (.error notPositive) := by
  by_cases hdigits : token ≠ [] ∧ token.all Char.isDigit = true
  swap
  · refine .inr ⟨by rintro ⟨n, hn, _⟩; exact hdigits ⟨hn.1, hn.2.1⟩, if_pos ?_⟩
    by_contra hnot
    obtain ⟨hne, hall⟩ := not_or.1 hnot
    exact hdigits ⟨hne, not_not.1 hall⟩
  obtain ⟨hne, hall⟩ := hdigits
  have hvalid : ¬(token = [] ∨ ¬token.all Char.isDigit = true) := by
    simp only [hall, not_true_eq_false, or_false]
    exact hne
  obtain ⟨n, -, hfold⟩ := foldlM_of_isDigit hall 0
  have hnumber : IsNumber token n := by
    obtain ⟨c, cs, rfl⟩ := List.exists_cons_of_ne_nil hne
    exact ⟨hne, hall, hfold⟩
  rw [versionOf, if_neg hvalid, parseU32_eq hnumber]
  obtain rfl | hpos := Nat.eq_zero_or_pos n
  · refine .inr ⟨?_, rfl⟩
    rintro ⟨m, hm, hpos⟩
    rw [Option.mem_unique hm.2.2 hnumber.2.2] at hpos
    exact absurd hpos (Nat.lt_irrefl 0)
  · refine .inl ⟨n, hnumber, hpos, ?_⟩
    by_cases hlt : n < 2 ^ 32
    · rw [versionFor, if_pos hlt, if_pos hlt]
      cases n with
      | zero => exact absurd hpos (Nat.lt_irrefl 0)
      | succ n => rfl
    · rw [versionFor, if_neg hlt, if_neg hlt]
      rfl

section Version

variable (json : Json) (bytes : Bytes)

/-- The texts of the versions that an object has. -/
def versions : List (List Char) :=
  ((json.object bytes).1.filter fun entry ↦ entry.1 = key).map Prod.snd

/-- The bytes are one object with the version `n`: as its only one, a positive integer, or as what a
file without a version is. -/
def HasVersion (unversionedAs : Option Nat) (n : Nat) : Prop :=
  (json.object bytes).2 = none ∧
    ((∃ token, versions json bytes = [token] ∧ IsNumber token n ∧ 0 < n) ∨
      versions json bytes = [] ∧ unversionedAs = some n)

variable {json bytes}

theorem HasVersion.unique {unversionedAs : Option Nat} {m n : Nat}
    (hm : HasVersion json bytes unversionedAs m) (hn : HasVersion json bytes unversionedAs n) :
    m = n := by
  obtain ⟨-, ⟨token, htoken, hnumber, -⟩ | ⟨hnone, hdefault⟩⟩ := hm
  · obtain ⟨-, ⟨token', htoken', hnumber', -⟩ | ⟨hnone', -⟩⟩ := hn
    · rw [htoken, List.singleton_inj] at htoken'
      subst htoken'
      exact Option.mem_unique hnumber.2.2 hnumber'.2.2
    · rw [htoken] at hnone'
      cases hnone'
  · obtain ⟨-, ⟨token', htoken', -⟩ | ⟨-, hdefault'⟩⟩ := hn
    · rw [hnone] at htoken'
      cases htoken'
    · exact Option.mem_unique hdefault hdefault'

theorem visitMap_some (duplicate : ParseFailure) (token : List Char)
    (entries : List (List Char × List Char)) :
    visitMap duplicate (some token) entries =
      if (entries.filter fun entry ↦ entry.1 = key).map Prod.snd = [] then .ok (some token)
      else .error duplicate := by
  induction entries with
  | nil => rfl
  | cons entry entries ih =>
    obtain ⟨k, value⟩ := entry
    by_cases hk : k = key
    · rw [visitMap, if_neg (not_not.2 hk), if_pos Option.isSome_some,
        List.filter_cons_of_pos (by simpa using hk)]
      rfl
    · rw [visitMap, if_pos hk, ih, List.filter_cons_of_neg (by simpa using hk)]

/-- The version that is found is the only one there is. -/
theorem visitMap_none (duplicate : ParseFailure) (entries : List (List Char × List Char)) :
    visitMap duplicate none entries =
      match (entries.filter fun entry ↦ entry.1 = key).map Prod.snd with
      | [] => .ok none
      | [token] => .ok (some token)
      | _ => .error duplicate := by
  induction entries with
  | nil => rfl
  | cons entry entries ih =>
    obtain ⟨k, value⟩ := entry
    by_cases hk : k = key
    · rw [visitMap, if_neg (not_not.2 hk), if_neg (by simp), visitMap_some,
        List.filter_cons_of_pos (by simpa using hk), List.map_cons]
      cases (entries.filter fun entry ↦ entry.1 = key).map Prod.snd <;> rfl
    · rw [visitMap, if_pos hk, ih, List.filter_cons_of_neg (by simpa using hk)]

theorem findVersion_eq : findVersion json bytes =
    match versions json bytes, (json.object bytes).2 with
    | [], none => .ok none
    | [token], none => .ok (some token)
    | [], some failure => .error failure
    | [_], some failure => .error failure
    | _, _ => .error (json.duplicate bytes) := by
  rw [findVersion, visitMap_none]
  change (match (match versions json bytes with
      | [] => _
      | [token] => _
      | _ => _ : Except ParseFailure (Option (List Char))) with
    | .error failure => _
    | .ok found => _) = _
  rcases versions json bytes with - | ⟨token, - | ⟨token', tokens⟩⟩ <;>
    cases (json.object bytes).2 <;> rfl

/-- The version is read of an object that has one, and of nothing else. -/
theorem readVersion_eq (json : Json) (bytes : Bytes) {unversionedAs : Option Nat}
    (hlt : ∀ n, unversionedAs = some n → n < 2 ^ 32) :
    (∃ n, HasVersion json bytes unversionedAs n ∧
      readVersion json bytes unversionedAs = some (.ok (versionFor n))) ∨
    (¬∃ n, HasVersion json bytes unversionedAs n) ∧
      ∃ failure, readVersion json bytes unversionedAs = some (.error failure) := by
  unfold readVersion
  rw [findVersion_eq]
  cases hobject : (json.object bytes).2 with
  | some failure =>
    refine .inr ⟨?_, ?_⟩
    · rintro ⟨n, hn, -⟩
      rw [hobject] at hn
      cases hn
    rcases versions json bytes with - | ⟨token, - | ⟨token', tokens⟩⟩
    · exact ⟨_, rfl⟩
    · exact ⟨_, rfl⟩
    · exact ⟨_, rfl⟩
  | none =>
    rcases hversions : versions json bytes with - | ⟨token, - | ⟨token', tokens⟩⟩
    · cases hdefault : unversionedAs with
      | none =>
        refine .inr ⟨?_, _, rfl⟩
        rintro ⟨n, -, ⟨token, htoken, -⟩ | ⟨-, hsome⟩⟩
        · rw [hversions] at htoken
          cases htoken
        · cases hsome
      | some n =>
        refine .inl ⟨n, ⟨hobject, .inr ⟨hversions, rfl⟩⟩, ?_⟩
        rw [versionFor, if_pos (hlt n hdefault)]
    · rcases versionOf_eq token with ⟨n, hnumber, hpos, hversion⟩ | ⟨hnot, hversion⟩
      · exact .inl ⟨n, ⟨hobject, .inl ⟨token, hversions, hnumber, hpos⟩⟩, hversion⟩
      · refine .inr ⟨?_, _, hversion⟩
        rintro ⟨n, -, ⟨token', htoken, hnumber⟩ | ⟨hnil, -⟩⟩
        · rw [hversions, List.singleton_inj] at htoken
          exact hnot ⟨n, htoken ▸ hnumber⟩
        · rw [hversions] at hnil
          cases hnil
    · refine .inr ⟨?_, _, rfl⟩
      rintro ⟨n, -, ⟨token'', htoken, -⟩ | ⟨hnil, -⟩⟩
      · rw [hversions] at htoken
        cases htoken
      · rw [hversions] at hnil
        cases hnil

end Version

/-! ### What a chain decodes -/

section Decode

variable {σ : Type} {chain : Chain σ} {found : Nat} (bytes : Bytes)

theorem decode_cases (h : chain.Linked) (htop : found ≤ chain.top) :
    (found ≤ chain.floor ∧ chain.decode found bytes = some (.error .obsolete)) ∨
      ∃ (π : Type) (fromSlice : Bytes → Except ParseFailure π) (f : π → σ),
        chain.SchemaOf found fromSlice f ∧
        chain.decode found bytes = some (Chain.upgraded f (fromSlice bytes)) := by
  obtain hfloor | hfloor := Nat.lt_or_ge chain.floor found
  · obtain ⟨π, fromSlice, f, hschema⟩ := Chain.exists_schemaOf h hfloor htop
    exact .inr ⟨π, fromSlice, f, hschema, Chain.decode_of_schemaOf h hschema bytes⟩
  · exact .inl ⟨hfloor, Chain.decode_of_le_floor h hfloor bytes⟩

theorem decode_obsolete_iff (h : chain.Linked) (htop : found ≤ chain.top) :
    chain.decode found bytes = some (.error .obsolete) ↔ found ≤ chain.floor := by
  refine ⟨fun hdecode ↦ ?_, fun hfloor ↦ Chain.decode_of_le_floor h hfloor bytes⟩
  rcases decode_cases bytes h htop with ⟨hfloor, -⟩ | ⟨π, fromSlice, f, -, hdecode'⟩
  · exact hfloor
  · rw [hdecode] at hdecode'
    cases hslice : fromSlice bytes with
    | ok x => rw [hslice] at hdecode'; cases hdecode'
    | error failure => rw [hslice] at hdecode'; cases hdecode'

/-- The payload does not parse as the schema of its version. -/
def Misshapen {σ : Type} (chain : Chain σ) (found : Nat) (bytes : Bytes) : Prop :=
  ∃ (π : Type) (fromSlice : Bytes → Except ParseFailure π) (f : π → σ),
    chain.SchemaOf found fromSlice f ∧ ∃ failure, fromSlice bytes = .error failure

/-- It does, as what the later upgrades make the value of. -/
def ParsesAs {σ : Type} (chain : Chain σ) (found : Nat) (bytes : Bytes) (value : σ) : Prop :=
  ∃ (π : Type) (fromSlice : Bytes → Except ParseFailure π) (f : π → σ),
    chain.SchemaOf found fromSlice f ∧ ∃ x, fromSlice bytes = .ok x ∧ f x = value

theorem decode_shape_iff (h : chain.Linked) (htop : found ≤ chain.top) :
    (∃ failure, chain.decode found bytes = some (.error (.shape failure))) ↔
      Misshapen chain found bytes := by
  constructor
  · rintro ⟨failure, hdecode⟩
    rcases decode_cases bytes h htop with
      ⟨-, hdecode'⟩ | ⟨π, fromSlice, f, hschema, hdecode'⟩
    · rw [hdecode] at hdecode'
      cases hdecode'
    · rw [hdecode] at hdecode'
      cases hslice : fromSlice bytes with
      | ok x => rw [hslice] at hdecode'; cases hdecode'
      | error failure' => exact ⟨π, fromSlice, f, hschema, failure', hslice⟩
  · rintro ⟨π, fromSlice, f, hschema, failure, hslice⟩
    exact ⟨failure, by rw [Chain.decode_of_schemaOf h hschema, hslice]; rfl⟩

theorem decode_ok_iff (h : chain.Linked) (htop : found ≤ chain.top) (value : σ) :
    chain.decode found bytes = some (.ok value) ↔ ParsesAs chain found bytes value := by
  constructor
  · intro hdecode
    rcases decode_cases bytes h htop with
      ⟨-, hdecode'⟩ | ⟨π, fromSlice, f, hschema, hdecode'⟩
    · rw [hdecode] at hdecode'
      cases hdecode'
    · rw [hdecode] at hdecode'
      cases hslice : fromSlice bytes with
      | ok x =>
        rw [hslice] at hdecode'
        cases hdecode'
        exact ⟨π, fromSlice, f, hschema, x, hslice, rfl⟩
      | error failure => rw [hslice] at hdecode'; cases hdecode'
  · rintro ⟨π, fromSlice, f, hschema, x, hslice, rfl⟩
    rw [Chain.decode_of_schemaOf h hschema, hslice]
    rfl

end Decode

/-! ### What a file is read as -/

section Classify

variable {σ : Type} {json : Json} {S : VersionedState σ} {bytes : Bytes}

theorem within_versionFor {current n : Nat} (hcurrent : current < 2 ^ 32) :
    within current (versionFor n) =
      if n ≤ current then .ok n else .error (if n < 2 ^ 32 then some n else none) := by
  rw [versionFor]
  split
  · rfl
  · rw [if_neg (by omega)]
    rfl

theorem fromRead_of_version {n : Nat}
    (h : readVersion json bytes S.unversionedAs = some (.ok (versionFor n))) :
    fromRead json S bytes =
      if n ≤ S.version then
        (S.chain.decode n bytes).map fun r ↦
          match r with
          | .ok value => .current value n
          | .error .obsolete => .obsolete n bytes
          | .error (.shape failure) => .corrupt failure bytes
      else some (.newer (if n < 2 ^ 32 then some n else none) bytes) := by
  rw [fromRead, h]
  dsimp only
  rw [within_versionFor S.version_lt]
  by_cases hle : n ≤ S.version
  · rw [if_pos hle, if_pos hle]
    dsimp only
    rcases S.chain.decode n bytes with - | (- | -) | value <;> rfl
  · rw [if_neg hle, if_neg hle]

/-- The current version is decoded, or does not parse. -/
theorem readBack_ne_none (json : Json) (S : VersionedState σ) (bytes : Bytes) :
    readBack json S bytes ≠ none := by
  have hfloor : S.chain.floor < S.version := by
    have hle := Chain.floor_le_top S.linked.2
    have hversion := S.linked.1
    change S.prev.floor < S.version
    omega
  unfold readBack
  rcases readVersion_eq json bytes (nofun : ∀ n, none = some n → n < 2 ^ 32) with
    ⟨n, -, hread⟩ | ⟨-, failure, hread⟩
  · rw [hread]
    dsimp only
    split
    · rcases decode_cases bytes S.linked (Nat.le_refl S.version) with
        ⟨hle, -⟩ | ⟨π, fromSlice, f, -, hdecode⟩
      · exact absurd hle (Nat.not_le_of_gt hfloor)
      · change S.chain.decode S.version bytes = _ at hdecode
        rw [hdecode]
        cases fromSlice bytes <;> exact Option.some_ne_none _
    · exact Option.some_ne_none _
  · rw [hread]
    exact Option.some_ne_none _

/-- What a file is read as, for whatever its bytes are; no assertion fails, and what is
`unreachable!` is not reached. -/
theorem fromRead_classifies (json : Json) (S : VersionedState σ) (bytes : Bytes) :
    (∃ loaded, fromRead json S bytes = some loaded ∧
      ((∃ failure, loaded = .corrupt failure bytes) ↔
        (¬∃ n, HasVersion json bytes S.unversionedAs n) ∨
          ∃ n, HasVersion json bytes S.unversionedAs n ∧ Misshapen S.chain n bytes) ∧
      (∀ found, loaded = .newer found bytes ↔ ∃ n, HasVersion json bytes S.unversionedAs n ∧
        S.version < n ∧ found = if n < 2 ^ 32 then some n else none) ∧
      (∀ found, loaded = .obsolete found bytes ↔
        HasVersion json bytes S.unversionedAs found ∧ found ≤ S.chain.floor) ∧
      ∀ value found, loaded = .current value found ↔
        HasVersion json bytes S.unversionedAs found ∧ ParsesAs S.chain found bytes value) ∧
    readBack json S bytes ≠ none := by
  refine ⟨?_, readBack_ne_none json S bytes⟩
  have hlinked : S.chain.Linked := S.linked
  rcases readVersion_eq json bytes S.unversioned_lt with
    ⟨n, hn, hread⟩ | ⟨hnone, failure, hread⟩
  swap
  · -- There is no version.
    refine ⟨.corrupt failure bytes, by rw [fromRead, hread],
      iff_of_true ⟨failure, rfl⟩ (.inl hnone),
      fun found ↦ iff_of_false nofun fun h ↦ hnone (h.imp fun _ hm ↦ hm.1),
      fun found ↦ iff_of_false nofun fun h ↦ hnone ⟨found, h.1⟩,
      fun value found ↦ iff_of_false nofun fun h ↦ hnone ⟨found, h.1⟩⟩
  have hversion (m : Nat) : HasVersion json bytes S.unversionedAs m ↔ m = n :=
    ⟨fun hm ↦ hm.unique hn, fun hm ↦ hm ▸ hn⟩
  simp only [hversion, exists_eq, not_true_eq_false, false_or, exists_eq_left]
  rw [fromRead_of_version hread]
  have habove {π : Type} {fromSlice : Bytes → Except ParseFailure π} {f : π → σ} {m : Nat}
      (h : S.chain.SchemaOf m fromSlice f) : m ≤ S.version := (Chain.lt_of_schemaOf hlinked h).2
  by_cases hle : n ≤ S.version
  swap
  · -- No schema of the chain is of a version above its top.
    rw [if_neg hle]
    refine ⟨_, rfl, iff_of_false (by rintro ⟨_, ⟨⟩⟩) ?_, fun found ↦ ?_,
      fun found ↦ iff_of_false nofun ?_, fun value found ↦ iff_of_false nofun ?_⟩
    · rintro ⟨π, fromSlice, f, h, -⟩
      exact hle (habove h)
    · rw [Loaded.newer.injEq, and_iff_left rfl, and_iff_right (Nat.lt_of_not_le hle), eq_comm]
    · rintro ⟨hfound, hfloor⟩
      exact hle (hfound ▸ hfloor.trans (Chain.floor_le_top hlinked))
    · rintro ⟨hfound, π, fromSlice, f, h, -⟩
      exact hle (hfound ▸ habove h)
  -- The chain reads it: what it returns says which of the four the bytes are.
  rw [if_pos hle]
  have hobsolete := decode_obsolete_iff bytes hlinked hle
  have hshape := decode_shape_iff bytes hlinked hle
  have hok (value : σ) := decode_ok_iff bytes hlinked hle value
  have hnewer (found : Option Nat) :
      ¬(S.version < n ∧ found = if n < 2 ^ 32 then some n else none) :=
    fun h ↦ hle.not_gt h.1
  have hsome := Chain.decode_ne_none hlinked hle bytes
  cases hdecode : S.chain.decode n bytes with
  | none => exact absurd hdecode hsome
  | some r =>
    simp only [hdecode] at hobsolete hshape hok
    cases r with
    | ok value =>
      refine ⟨.current value n, rfl, iff_of_false (by rintro ⟨_, ⟨⟩⟩) fun h ↦ ?_,
        fun found ↦ iff_of_false nofun (hnewer found),
        fun found ↦ iff_of_false nofun fun h ↦ ?_, fun value' found ↦ ?_⟩
      · obtain ⟨failure, hfailure⟩ := hshape.2 h
        cases hfailure
      · cases hobsolete.2 (h.1 ▸ h.2)
      · rw [Loaded.current.injEq]
        constructor
        · rintro ⟨rfl, rfl⟩
          exact ⟨rfl, (hok value).1 rfl⟩
        · rintro ⟨rfl, h⟩
          cases (hok value').2 h
          exact ⟨rfl, rfl⟩
    | error error =>
      cases error with
      | obsolete =>
        refine ⟨.obsolete n bytes, rfl, iff_of_false (by rintro ⟨_, ⟨⟩⟩) fun h ↦ ?_,
          fun found ↦ iff_of_false nofun (hnewer found), fun found ↦ ?_,
          fun value found ↦ iff_of_false nofun fun h ↦ ?_⟩
        · obtain ⟨failure, hfailure⟩ := hshape.2 h
          cases hfailure
        · rw [Loaded.obsolete.injEq, and_iff_left rfl, eq_comm]
          exact ⟨fun h ↦ ⟨h, h ▸ hobsolete.1 rfl⟩, fun h ↦ h.1⟩
        · obtain ⟨rfl, h⟩ := h
          cases (hok value).2 h
      | shape failure =>
        refine ⟨.corrupt failure bytes, rfl, iff_of_true ⟨failure, rfl⟩ (hshape.1 ⟨failure, rfl⟩),
          fun found ↦ iff_of_false nofun (hnewer found),
          fun found ↦ iff_of_false nofun fun h ↦ ?_,
          fun value found ↦ iff_of_false nofun fun h ↦ ?_⟩
        · cases hobsolete.2 (h.1 ▸ h.2)
        · obtain ⟨rfl, h⟩ := h
          cases (hok value).2 h

/-- The note of version 1 is read by the schema of its version, and upgraded. -/
theorem fromRead_classifies_note : HasVersion noteJson noteText none 1 ∧
    ParsesAs note.chain 1 noteText ⟨"t", ["imported"]⟩ ∧
    readBack noteJson note noteText ≠ none := by
  obtain ⟨⟨loaded, hloaded, -, -, -, hcurrent⟩, hback⟩ := fromRead_classifies noteJson note noteText
  have hread : fromRead noteJson note noteText = some (.current ⟨"t", ["imported"]⟩ 1) := rfl
  cases hloaded.symm.trans hread
  obtain ⟨hversion, hparses⟩ := (hcurrent _ _).1 rfl
  exact ⟨hversion, hparses, hback⟩

end Classify

/-! ### The reading of the other modules -/

section Schema

variable {σ : Type}

/-- What a reading is without the texts of its failures and without the bytes. -/
def Loaded.content : Loaded σ → Content σ
  | .corrupt _ _ => .corrupt
  | .obsolete found _ => .obsolete found
  | .newer found _ => .newer found
  | .current value found => .current value found

/-- The schema with the chain below it taken as one function. -/
def VersionedState.schema (S : VersionedState σ) (json : Json)
    (toVecPretty : Nat → σ → Option Bytes) : Schema σ where
  version := S.version
  unversionedAs := S.unversionedAs
  json.versionToken bytes := (findVersion json bytes).toOption
  json.fromSlice bytes := (S.fromSlice bytes).toOption
  json.toVecPretty := toVecPretty
  prev found bytes :=
    match S.prev.decode found bytes with
    | some (.ok value) => .ok (S.upgrade value)
    | some (.error (.shape _)) => .error .shape
    | some (.error .obsolete) => .error .obsolete
    | none => .error .obsolete

theorem versionOf_toOption (token : List Char) :
    (versionOf token).map Except.toOption = some (State.versionOf token) := by
  rcases versionOf_eq token with ⟨n, ⟨hne, hall, hread⟩, hpos, hversion⟩ | ⟨hnot, hversion⟩
  · have hvalid : ¬(token.isEmpty || !token.all Char.isDigit) = true := by
      rw [hall, List.isEmpty_eq_false_iff.2 hne]
      exact Bool.false_ne_true
    rw [hversion, State.versionOf, hread, if_neg hvalid, versionFor]
    dsimp only
    by_cases hlt : n < 2 ^ 32
    · rw [if_pos hlt, if_neg (Nat.not_le_of_lt hlt), if_neg (Nat.ne_of_gt hpos)]
      rfl
    · rw [if_neg hlt, if_pos (Nat.le_of_not_lt hlt)]
      rfl
  · rw [hversion, State.versionOf]
    split
    · rfl
    · next hvalid =>
      cases hread : readNat 10 token with
      | none => rfl
      | some n =>
        have hzero : n = 0 := by
          by_contra hne
          refine hnot ⟨n, ⟨?_, ?_, hread⟩, Nat.pos_of_ne_zero hne⟩
          · rintro rfl
            exact hvalid rfl
          · by_contra hall
            exact hvalid (by simp [hall])
        subst hzero
        rfl

theorem readVersion_toOption (json : Json) (S : VersionedState σ)
    (toVecPretty : Nat → σ → Option Bytes) (bytes : Bytes) :
    (readVersion json bytes S.unversionedAs).map Except.toOption =
      some ((S.schema json toVecPretty).readVersion bytes S.unversionedAs) := by
  unfold readVersion Schema.readVersion
  dsimp only [VersionedState.schema]
  rcases findVersion json bytes with failure | - | token
  · rfl
  · cases S.unversionedAs <;> rfl
  · exact versionOf_toOption token

/-- The two decodings of a version that is not newer end alike. -/
theorem decode_schema (json : Json) (S : VersionedState σ)
    (toVecPretty : Nat → σ → Option Bytes) {found : Nat} (hle : found ≤ S.version)
    (bytes : Bytes) :
    (∃ value, S.chain.decode found bytes = some (.ok value) ∧
        (S.schema json toVecPretty).decode found bytes = .ok value) ∨
      (S.chain.decode found bytes = some (.error .obsolete) ∧
        (S.schema json toVecPretty).decode found bytes = .error .obsolete) ∨
      ∃ failure, S.chain.decode found bytes = some (.error (.shape failure)) ∧
        (S.schema json toVecPretty).decode found bytes = .error .shape := by
  have hversion : (S.schema json toVecPretty).version = S.version := rfl
  rw [VersionedState.chain, Chain.decode, Schema.decode]
  by_cases heq : found = S.version
  · rw [if_pos heq, if_pos (heq.trans hversion.symm)]
    dsimp only [VersionedState.schema]
    cases S.fromSlice bytes with
    | error failure => exact .inr (.inr ⟨failure, rfl, rfl⟩)
    | ok value => exact .inl ⟨value, rfl, rfl⟩
  · rw [if_neg heq, if_pos (Nat.lt_of_le_of_ne hle heq), if_neg (hversion ▸ heq)]
    dsimp only [VersionedState.schema]
    have hprev : found ≤ S.prev.top := by
      have := S.linked.1
      omega
    have hsome := Chain.decode_ne_none S.linked.2 hprev bytes
    rcases hbelow : S.prev.decode found bytes with - | (- | failure) | old
    · exact absurd hbelow hsome
    · exact .inr (.inl ⟨rfl, rfl⟩)
    · exact .inr (.inr ⟨failure, rfl, rfl⟩)
    · exact .inl ⟨_, rfl, rfl⟩

/-- The two readings of a file are the same. -/
theorem classify_eq_fromRead (json : Json) (S : VersionedState σ)
    (toVecPretty : Nat → σ → Option Bytes) (bytes : Bytes) :
    (fromRead json S bytes).map Loaded.content =
      some ((S.schema json toVecPretty).classify bytes) := by
  have hread := readVersion_toOption json S toVecPretty bytes
  have hunversioned : (S.schema json toVecPretty).unversionedAs = S.unversionedAs := rfl
  have hversion : (S.schema json toVecPretty).version = S.version := rfl
  rw [fromRead, Schema.classify, hunversioned, hversion]
  rcases hfound : readVersion json bytes S.unversionedAs with - | failure | found | -
  · rw [hfound] at hread
    cases hread
  · rw [hfound] at hread
    rw [← Option.some.inj hread]
    rfl
  · rw [hfound] at hread
    rw [← Option.some.inj hread]
    dsimp only [Except.toOption, within]
    by_cases hle : found ≤ S.version
    · rw [if_pos hle, if_neg (Nat.not_lt_of_le hle)]
      dsimp only
      rcases decode_schema json S toVecPretty hle bytes with
        ⟨value, hchain, hschema⟩ | ⟨hchain, hschema⟩ | ⟨failure, hchain, hschema⟩ <;>
        rw [hchain, hschema] <;> rfl
    · rw [if_neg hle, if_pos (Nat.lt_of_not_le hle)]
      rfl
  · rw [hfound] at hread
    rw [← Option.some.inj hread]
    rfl

theorem classify_note :
    (note.schema noteJson fun _ _ ↦ none).classify noteText = .current ⟨"t", ["imported"]⟩ 1 :=
  (Option.some.inj (classify_eq_fromRead noteJson note (fun _ _ ↦ none) noteText)).symm

end Schema

end Hole.State.Framed
