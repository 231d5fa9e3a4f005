import Hole.FailClosed.Cover

/-!
# What a sweep proves

The release verdict of `tun-engine/src/routing/failclosed.rs` and the persisted record of
`failclosed/boottime_witness.rs`. A sweep deletes every key it knows and folds what the deletes
observed into a `Clearance`; a boot-time key answers *not found* on every boot where its runtime
object is not live, so an empty answer proves nothing about it, and **only a watched removal
does** (`provesEmpty_bootTime`).

Whether an unproven key is worth reporting is decided from two sources: the siblings the same
sweep met, and the persisted record (`ArmingWitness`). The record is cleared by one observation
only, a sweep that watched every boot-time key go (`removed_of_nextRecord_false`).
-/

namespace Hole.FailClosed

/-- Which record backs a key. -/
inductive KeyLifetime
  /-- The record a delete addresses is the key's only one. -/
  | persistent
  /-- A boot-time policy record may be provisioned behind an empty key. -/
  | bootTime
  deriving DecidableEq

/-- What one delete observed. -/
inductive KeyOutcome
  | removed
  | notFound
  | failed
  deriving DecidableEq

/-- What a key's outcome says about other keys. -/
inductive KeyRole
  | plain
  /-- The persistent half of a rule that a boot-time twin copies. -/
  | bootTimeSibling
  deriving DecidableEq

/-- One key's contribution to a verdict. -/
structure KeyObservation where
  key : String
  lifetime : KeyLifetime
  outcome : KeyOutcome
  role : KeyRole

/-- `KeyObservation::proves_empty`. -/
def KeyObservation.provesEmpty (o : KeyObservation) : Bool :=
  match o.lifetime, o.outcome with
  | .persistent, .removed => true
  | .persistent, .notFound => true
  | .bootTime, .removed => true
  | .bootTime, .notFound => false
  | _, .failed => false

/-- What the persisted record says. -/
inductive ArmingWitness
  | armed
  | disarmed
  | unset
  | unreadable
  deriving DecidableEq

/-- `ArmingWitness::record_possible`. -/
def ArmingWitness.recordPossible : ArmingWitness → Bool
  | armed | unreadable => true
  | disarmed | unset => false

/-- What a sweep observed about its boot-time keys. -/
inductive BootTimeSightings
  | none
  | allProven
  | someUnproven
  deriving DecidableEq

/-- What a sweep's siblings said. -/
inductive SiblingEvidence
  | installed
  | absent
  | unknown

/-- `SiblingEvidence::record_possible`. -/
def SiblingEvidence.recordPossible : SiblingEvidence → Bool
  | installed | unknown => true
  | absent => false

/-- `sibling_evidence`. A sweep without a sibling rules nothing out. -/
def siblingEvidence (observations : List KeyObservation) : SiblingEvidence :=
  let outcomes := (observations.filter (·.role = .bootTimeSibling)).map (·.outcome)
  if outcomes.isEmpty then .unknown
  else if outcomes.contains .removed then .installed
  else if outcomes.all (· = .notFound) then .absent
  else .unknown

/-- `boot_time_sightings`: the loop's flags are `seen` and `unproven`. -/
def bootTimeSightings (observations : List KeyObservation) : BootTimeSightings :=
  let (seen, unproven) := (observations.filter (·.lifetime = .bootTime)).foldl
    (fun (_, unproven) o ↦ (true, unproven || !o.provesEmpty)) (false, false)
  match seen, unproven with
  | false, _ => .none
  | true, true => .someUnproven
  | true, false => .allProven

/-- `Clearance`: what a sweep proved. -/
structure Clearance where
  /-- The keys whose absence went unproven, in sweep order. -/
  unproven : List String
  /-- What the siblings said. -/
  sibling : SiblingEvidence
  /-- What the record said when the sweep was folded. -/
  witness : ArmingWitness
  bootTime : BootTimeSightings

/-- `Clearance::from_observations`. -/
def Clearance.fromObservations (observations : List KeyObservation) (witness : ArmingWitness) :
    Clearance where
  unproven := (observations.filter (!·.provesEmpty)).map (·.key)
  sibling := siblingEvidence observations
  witness := witness
  bootTime := bootTimeSightings observations

/-- `Clearance::leftover_keys`: either source is enough. -/
def Clearance.leftoverKeys (c : Clearance) : List String :=
  if c.sibling.recordPossible || c.witness.recordPossible then c.unproven else []

/-- `WitnessUpdate`. -/
inductive WitnessUpdate
  | arm
  | disarm
  | leave

/-- `Clearance::witness_update`. -/
def Clearance.witnessUpdate (c : Clearance) : WitnessUpdate :=
  match c.bootTime, c.sibling with
  | .none, _ => .leave
  | .allProven, _ => .disarm
  | .someUnproven, .installed => .arm
  | .someUnproven, .unknown => .arm
  | .someUnproven, .absent => .leave

/-- `next_record`: the record's next value, `none` where nothing is written. -/
def nextRecord (current : ArmingWitness) : WitnessUpdate → Option Bool
  | .leave => none
  | .arm => if current ≠ .armed then some true else none
  | .disarm =>
    match current with
    | .disarmed | .unset => none
    | .armed | .unreadable => some false

/-- `SweepOutcome`: a verdict, and the failure beside it. -/
structure SweepOutcome where
  clearance : Clearance
  failure : Option RoutingError

/-- `SweepOutcome::into_result`. -/
def SweepOutcome.intoResult (o : SweepOutcome) : Except RoutingError Clearance :=
  match o.failure with
  | some e => .error e
  | none => .ok o.clearance

/-! ### What the folds say -/

variable {o : KeyObservation}

/-- **Only a watched removal proves a boot-time key empty.** -/
theorem provesEmpty_bootTime (h : o.lifetime = .bootTime) :
    o.provesEmpty = true ↔ o.outcome = .removed := by
  obtain ⟨key, lifetime, outcome, role⟩ := o
  obtain rfl : lifetime = .bootTime := h
  cases outcome <;> simp [KeyObservation.provesEmpty]

theorem foldl_sightings (l : List KeyObservation) (seen unproven : Bool) :
    l.foldl (fun (_, unproven) o ↦ (true, unproven || !o.provesEmpty)) (seen, unproven) =
      (seen || !l.isEmpty, unproven || l.any (!·.provesEmpty)) := by
  induction l generalizing seen unproven with
  | nil => simp
  | cons o l ih =>
    rw [List.foldl_cons, ih]
    simp [Bool.or_assoc]

variable {l : List KeyObservation}

/-- A sweep that says *all proven* watched every boot-time key go. -/
theorem removed_of_allProven (h : bootTimeSightings l = .allProven) (ho : o ∈ l)
    (hlife : o.lifetime = .bootTime) : o.outcome = .removed := by
  have hmem : o ∈ l.filter (·.lifetime = .bootTime) := List.mem_filter.2 ⟨ho, by simpa using hlife⟩
  rw [bootTimeSightings, foldl_sightings] at h
  have hany : (l.filter (·.lifetime = .bootTime)).any (!·.provesEmpty) = false := by
    revert h
    cases (l.filter (·.lifetime = .bootTime)).isEmpty <;>
      cases (l.filter (·.lifetime = .bootTime)).any (!·.provesEmpty) <;> simp
  have hproves := List.any_eq_false.1 hany o hmem
  rw [← provesEmpty_bootTime hlife]
  simpa using hproves

/-- **The record is cleared by one observation only.** -/
theorem removed_of_nextRecord_false {witness current : ArmingWitness}
    (h : nextRecord current (Clearance.fromObservations l witness).witnessUpdate = some false)
    (ho : o ∈ l) (hlife : o.lifetime = .bootTime) : o.outcome = .removed := by
  have hall : bootTimeSightings l = .allProven := by
    rcases hb : bootTimeSightings l with - | - | -
    · simp [Clearance.witnessUpdate, Clearance.fromObservations, hb, nextRecord] at h
    · rfl
    · cases hs : siblingEvidence l <;>
        simp [Clearance.witnessUpdate, Clearance.fromObservations, hb, hs, nextRecord] at h
  exact removed_of_allProven hall ho hlife

/-- A sweep that observed nothing leaves the record alone. -/
theorem nextRecord_fromObservations_nil (current witness : ArmingWitness) :
    nextRecord current (Clearance.fromObservations [] witness).witnessUpdate = none := rfl

/-- An unproven key of a host whose record leaves one possible is reported. -/
theorem mem_leftoverKeys {witness : ArmingWitness} (hw : witness.recordPossible = true) (ho : o ∈ l)
    (hproves : o.provesEmpty = false) :
    o.key ∈ (Clearance.fromObservations l witness).leftoverKeys := by
  have hmem : o ∈ l.filter (!·.provesEmpty) := List.mem_filter.2 ⟨ho, by simp [hproves]⟩
  simp only [Clearance.leftoverKeys, Clearance.fromObservations, hw, Bool.or_true, if_true]
  exact List.mem_map_of_mem hmem

end Hole.FailClosed
