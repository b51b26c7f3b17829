import Ferroid.Generator.Snowflake.Basic
import Ferroid.Generator.Ulid.BasicMono

/-!
Contract: the basic generators in a build with debug assertions and overflow checks.

Owns `from_components`, the checked `+` and `-` and `poll_id` as such a build compiles
them, with the messages of their panics, and that such a build differs from a release
build in one case only: a clock reading that does not fit the timestamp field.

Does not own what a release build does with such a reading (`Generator.Exhaustion`).
-/

namespace Ferroid.Generator

open Ferroid.Id

/-! ## Checked arithmetic -/

section Arithmetic

variable {width : Nat}

def checkedAdd (left right : BitVec width) : Except String (BitVec width) :=
  if left.toNat + right.toNat < 2 ^ width then .ok (left + right)
  else .error "attempt to add with overflow"

def checkedSub (left right : BitVec width) : Except String (BitVec width) :=
  if right ≤ left then .ok (left - right)
  else .error "attempt to subtract with overflow"

/-- `debug_assert!(condition, message)`, then the rest. -/
def debugAssert {Value : Type} (condition : Bool) (message : String)
    (rest : Except String Value) : Except String Value :=
  if condition then rest else .error message

theorem debugAssert_of_true {Value : Type} {condition : Bool} (holds : condition = true)
    (message : String) (rest : Except String Value) :
    debugAssert condition message rest = rest := by
  rw [debugAssert, if_pos holds]

end Arithmetic

/-! ## Runs -/

section Runs

variable {ID Ty Generator Reading : Type}

/-- Poll once for each clock reading, in order, until a poll panics. -/
def pollAllDebug (poll : Generator → Reading → Except String (Generator × Poll ID Ty)) :
    Generator → List Reading → Except String (List (Polled ID Ty Generator Reading))
  | _, [] => .ok []
  | generator, now :: rest => do
      let next ← poll generator now
      let later ← pollAllDebug poll next.1 rest
      return ⟨generator, now, next.2, next.1⟩ :: later

/-- Polls that agree but for one panic give runs that agree but for that panic. -/
theorem pollAllDebug_eq {debug : Generator → Reading → Except String (Generator × Poll ID Ty)}
    {release : Generator → Reading → Generator × Poll ID Ty} {fits : Reading → Bool}
    {message : String}
    (agrees : ∀ generator now, debug generator now =
      if fits now then .ok (release generator now) else .error message)
    (generator : Generator) (readings : List Reading) :
    pollAllDebug debug generator readings =
      if readings.all fits then .ok (pollAll release generator readings)
      else .error message := by
  induction readings generalizing generator with
  | nil => rfl
  | cons now rest inductionHypothesis =>
      rw [pollAllDebug, agrees, List.all_cons]
      cases fits now with
      | true =>
          rw [if_pos rfl, Bool.true_and]
          show (pollAllDebug debug (release generator now).1 rest >>= fun later =>
            Except.ok (⟨generator, now, (release generator now).2, (release generator now).1⟩ ::
              later)) = _
          rw [inductionHypothesis]
          cases rest.all fits with
          | true => rfl
          | false => rfl
      | false => rfl

end Runs

/-! ## A clock that is behind -/

section ColdClock

variable {ID : Type} {width : Nat}

def coldClockBehindDebug (now currentTs : BitVec width) :
    Except String (Poll ID (BitVec width)) := do
  let yieldFor ← checkedSub currentTs now
  debugAssert (0#(width) ≤ yieldFor) "assertion failed: yield_for >= ID::ZERO" <|
    .ok (.pending yieldFor)

theorem coldClockBehindDebug_eq {now currentTs : BitVec width} (earlier : now < currentTs) :
    coldClockBehindDebug now currentTs =
      .ok (.pending (currentTs - now) : Poll ID (BitVec width)) := by
  have nonneg : 0#(width) ≤ currentTs - now := by
    rw [BitVec.le_def, BitVec.toNat_zero]
    exact Nat.zero_le _
  unfold coldClockBehindDebug checkedSub
  rw [if_pos (BitVec.le_of_lt earlier)]
  show debugAssert (0#(width) ≤ currentTs - now) "assertion failed: yield_for >= ID::ZERO"
    (.ok (Poll.pending (currentTs - now))) = _
  rw [debugAssert_of_true (decide_eq_true nonneg)]

/-- Counting up by one stays in the integer where it stays in a narrower field. -/
theorem checkedAdd_one_eq {bits : Nat} {value : BitVec width} (narrow : bits ≤ width)
    (positive : 0 < width) (room : value.toNat + 1 < 2 ^ bits) :
    checkedAdd value 1#(width) = .ok (value + 1#(width)) ∧
      (value + 1#(width)).toNat = value.toNat + 1 := by
  have one : (1#(width)).toNat = 1 := by
    rw [BitVec.toNat_ofNat, Nat.mod_eq_of_lt (Nat.one_lt_two_pow positive.ne')]
  have inside : value.toNat + 1 < 2 ^ width :=
    Nat.lt_of_lt_of_le room (Nat.pow_le_pow_right (by decide) narrow)
  unfold checkedAdd
  rw [BitVec.toNat_add, one, if_pos inside, Nat.mod_eq_of_lt inside]
  exact ⟨rfl, rfl⟩

end ColdClock

/-! ## Snowflake generators -/

namespace SnowflakeDebug

variable {layout : SnowflakeLayout}

def fromComponents (timestamp machineId sequence : layout.Ty) :
    Except String (SnowflakeId layout) :=
  debugAssert (timestamp ≤ layout.maxTimestamp) "timestamp overflow" <|
    debugAssert (machineId ≤ layout.maxMachineId) "machine_id overflow" <|
      debugAssert (sequence ≤ layout.maxSequence) "sequence overflow" <|
        .ok (SnowflakeId.fromComponents timestamp machineId sequence)

def incrementSequence (self : SnowflakeId layout) : Except String (SnowflakeId layout) := do
  let nextSequence ← checkedAdd self.sequence 1#(layout.width)
  fromComponents self.timestamp self.machineId nextSequence

def rolloverToTimestamp (self : SnowflakeId layout) (ts : layout.Ty) :
    Except String (SnowflakeId layout) :=
  fromComponents ts self.machineId 0#(layout.width)

def pollId (self : BasicSnowflakeGenerator layout) (now : layout.Ty) :
    Except String (BasicSnowflakeGenerator layout × SnowflakePoll layout) :=
  let state := self.state
  let currentTs := state.timestamp
  match compare now.toNat currentTs.toNat with
  | .eq =>
      if state.hasSequenceRoom then
        (incrementSequence state).map fun updated => (⟨updated⟩, .ready updated)
      else
        .ok (self, .pending 1#(layout.width))
  | .gt => (rolloverToTimestamp state now).map fun updated => (⟨updated⟩, .ready updated)
  | .lt => (coldClockBehindDebug now currentTs).map fun result => (self, result)

/-- The machine ID of an ID is in range. -/
theorem fromComponents_eq (self : SnowflakeId layout) (timestamp : layout.Ty)
    {sequence : layout.Ty} (sequenceFits : sequence ≤ layout.maxSequence) :
    fromComponents timestamp self.machineId sequence =
      if timestamp ≤ layout.maxTimestamp then
        .ok (SnowflakeId.fromComponents timestamp self.machineId sequence)
      else .error "timestamp overflow" := by
  have machineFits : self.machineId ≤ layout.maxMachineId :=
    (SnowflakeLayout.le_maxMachineId_iff _).mpr self.machineId_lt
  unfold fromComponents
  rw [debugAssert_of_true (decide_eq_true machineFits),
    debugAssert_of_true (decide_eq_true sequenceFits), debugAssert]
  simp only [decide_eq_true_eq]

theorem incrementSequence_eq {self : SnowflakeId layout} (room : self.hasSequenceRoom = true) :
    incrementSequence self = .ok self.incrementSequence := by
  have timestampFits : self.timestamp ≤ layout.maxTimestamp :=
    (SnowflakeLayout.le_maxTimestamp_iff _).mpr self.timestamp_lt
  have bound := (SnowflakeId.hasSequenceRoom_iff self).mp room
  obtain ⟨added, value⟩ := checkedAdd_one_eq (Nat.le_of_lt SnowflakeLayout.sequence_lt)
    SnowflakeLayout.width_pos bound
  have nextFits : self.sequence + 1#(layout.width) ≤ layout.maxSequence := by
    rw [SnowflakeLayout.le_maxSequence_iff, value]
    exact bound
  unfold incrementSequence
  rw [added]
  show fromComponents self.timestamp self.machineId (self.sequence + 1#(layout.width)) = _
  rw [fromComponents_eq self _ nextFits, if_pos timestampFits]
  rfl

theorem rolloverToTimestamp_eq (self : SnowflakeId layout) (ts : layout.Ty) :
    rolloverToTimestamp self ts =
      if ts ≤ layout.maxTimestamp then .ok (self.rolloverToTimestamp ts)
      else .error "timestamp overflow" := by
  have zeroFits : 0#(layout.width) ≤ layout.maxSequence := by
    rw [BitVec.le_def, BitVec.toNat_zero]
    exact Nat.zero_le _
  exact fromComponents_eq self ts zeroFits

/-- One poll: of all checks only the timestamp assertion can fail. -/
theorem pollId_eq (self : BasicSnowflakeGenerator layout) (now : layout.Ty) :
    pollId self now =
      if now ≤ layout.maxTimestamp then .ok (self.pollId now) else .error "timestamp overflow" := by
  have stateFits : self.state.timestamp ≤ layout.maxTimestamp :=
    (SnowflakeLayout.le_maxTimestamp_iff _).mpr self.state.timestamp_lt
  unfold pollId BasicSnowflakeGenerator.pollId
  cases order : compare now.toNat self.state.timestamp.toNat with
  | eq =>
      have fits : now ≤ layout.maxTimestamp := by
        rw [BitVec.eq_of_toNat_eq (Nat.compare_eq_eq.mp order)]
        exact stateFits
      simp only [order, if_pos fits]
      cases room : self.state.hasSequenceRoom with
      | true =>
          rw [if_pos rfl, if_pos rfl, incrementSequence_eq room]
          rfl
      | false => rfl
  | gt =>
      simp only [order]
      rw [rolloverToTimestamp_eq]
      by_cases fits : now ≤ layout.maxTimestamp
      · rw [if_pos fits, if_pos fits]
        rfl
      · rw [if_neg fits, if_neg fits]
        rfl
  | lt =>
      have earlier : now < self.state.timestamp := Nat.compare_eq_lt.mp order
      have fits : now ≤ layout.maxTimestamp := BitVec.le_trans (BitVec.le_of_lt earlier) stateFits
      simp only [order, if_pos fits]
      rw [coldClockBehindDebug_eq earlier]
      rfl

end SnowflakeDebug

/-! ## ULID generators -/

namespace UlidDebug

variable {layout : UlidLayout}

/-- The random number may exceed its field. -/
def fromComponents (timestamp random : layout.Ty) : Except String (UlidId layout) :=
  debugAssert (timestamp ≤ layout.maxTimestamp) "timestamp overflow" <|
    .ok (UlidId.fromComponents timestamp random)

def incrementRandom (self : UlidId layout) : Except String (UlidId layout) := do
  let nextRandom ← checkedAdd self.random 1#(layout.width)
  fromComponents self.timestamp nextRandom

def rolloverToTimestamp (_ : UlidId layout) (ts rand : layout.Ty) :
    Except String (UlidId layout) :=
  fromComponents ts rand

def pollId (rng : Nat → layout.Ty) (self : BasicMonoUlidGenerator layout) (now : layout.Ty) :
    Except String (BasicMonoUlidGenerator layout × UlidPoll layout) :=
  let state := self.state
  let currentTs := state.timestamp
  match compare now.toNat currentTs.toNat with
  | .eq =>
      if state.hasRandomRoom then
        (incrementRandom state).map fun updated =>
          ({ self with state := updated }, .ready updated)
      else
        .ok (self, .pending 1#(layout.width))
  | .gt =>
      let rand := rng self.drawn
      (rolloverToTimestamp state now rand).map fun updated =>
        (⟨updated, self.drawn + 1⟩, .ready updated)
  | .lt => (coldClockBehindDebug now currentTs).map fun result => (self, result)

theorem fromComponents_eq (timestamp random : layout.Ty) :
    fromComponents timestamp random =
      if timestamp ≤ layout.maxTimestamp then .ok (UlidId.fromComponents timestamp random)
      else .error "timestamp overflow" := by
  unfold fromComponents debugAssert
  simp only [decide_eq_true_eq]

theorem incrementRandom_eq {self : UlidId layout} (room : self.hasRandomRoom = true) :
    incrementRandom self = .ok self.incrementRandom := by
  have timestampFits : self.timestamp ≤ layout.maxTimestamp :=
    (UlidLayout.le_maxTimestamp_iff _).mpr self.timestamp_lt
  obtain ⟨added, _⟩ := checkedAdd_one_eq (Nat.le_of_lt layout.random_lt) UlidLayout.width_pos
    ((UlidId.hasRandomRoom_iff self).mp room)
  unfold incrementRandom
  rw [added]
  show fromComponents self.timestamp (self.random + 1#(layout.width)) = _
  rw [fromComponents_eq, if_pos timestampFits]
  rfl

theorem pollId_eq (rng : Nat → layout.Ty) (self : BasicMonoUlidGenerator layout)
    (now : layout.Ty) :
    pollId rng self now =
      if now ≤ layout.maxTimestamp then .ok (self.pollId rng now)
      else .error "timestamp overflow" := by
  have stateFits : self.state.timestamp ≤ layout.maxTimestamp :=
    (UlidLayout.le_maxTimestamp_iff _).mpr self.state.timestamp_lt
  unfold pollId BasicMonoUlidGenerator.pollId
  cases order : compare now.toNat self.state.timestamp.toNat with
  | eq =>
      have fits : now ≤ layout.maxTimestamp := by
        rw [BitVec.eq_of_toNat_eq (Nat.compare_eq_eq.mp order)]
        exact stateFits
      simp only [order, if_pos fits]
      cases room : self.state.hasRandomRoom with
      | true =>
          rw [if_pos rfl, if_pos rfl, incrementRandom_eq room]
          rfl
      | false => rfl
  | gt =>
      simp only [order]
      rw [rolloverToTimestamp, fromComponents_eq]
      by_cases fits : now ≤ layout.maxTimestamp
      · rw [if_pos fits, if_pos fits]
        rfl
      · rw [if_neg fits, if_neg fits]
        rfl
  | lt =>
      have earlier : now < self.state.timestamp := Nat.compare_eq_lt.mp order
      have fits : now ≤ layout.maxTimestamp := BitVec.le_trans (BitVec.le_of_lt earlier) stateFits
      simp only [order, if_pos fits]
      rw [coldClockBehindDebug_eq earlier]
      rfl

end UlidDebug

/-- A build with debug assertions and overflow checks, from any state and over any clock:
it runs as a release build does while the readings fit the timestamp field, and it panics
with "timestamp overflow" at the first that does not. No other check ever fails. -/
theorem debug_build_exact :
    (∀ (layout : SnowflakeLayout) (self : BasicSnowflakeGenerator layout)
        (readings : List layout.Ty),
      pollAllDebug SnowflakeDebug.pollId self readings =
        if readings.all fun now => now ≤ layout.maxTimestamp then
          .ok (pollAll BasicSnowflakeGenerator.pollId self readings)
        else .error "timestamp overflow") ∧
      ∀ (layout : UlidLayout) (rng : Nat → layout.Ty) (self : BasicMonoUlidGenerator layout)
        (readings : List layout.Ty),
      pollAllDebug (UlidDebug.pollId rng) self readings =
        if readings.all fun now => now ≤ layout.maxTimestamp then
          .ok (pollAll (BasicMonoUlidGenerator.pollId rng) self readings)
        else .error "timestamp overflow" := by
  constructor
  · intro layout self readings
    refine pollAllDebug_eq (fun generator now => ?_) self readings
    rw [SnowflakeDebug.pollId_eq]
    simp only [decide_eq_true_eq]
  · intro layout rng self readings
    refine pollAllDebug_eq (fun generator now => ?_) self readings
    rw [UlidDebug.pollId_eq]
    simp only [decide_eq_true_eq]

end Ferroid.Generator
