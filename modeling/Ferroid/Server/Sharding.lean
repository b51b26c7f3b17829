import Ferroid.Server.Emission

/-!
Contract: two servers of one deployment and the IDs they emit.

Owns the worker ranges that operators assign by `shard_offset`, the condition
under which two servers never emit the same ID, and the pair of disjoint ranges
that does not meet it.

Does not own uniqueness within one server (`Server.Production`).
-/

namespace Ferroid.Server

open Ferroid.Id
open Ferroid.Generator
open Ferroid.Library

/-- The machine IDs a server is meant to use: `shard_offset` plus a worker index. -/
def ServerConfig.InRange (config : ServerConfig) (machine : Nat) : Prop :=
  config.shardOffset ≤ machine ∧ machine < config.shardOffset + config.numWorkers

/-- Ranges assigned to two servers do not overlap. -/
def RangesDisjoint (left right : ServerConfig) : Prop :=
  ∀ machine, left.InRange machine → ¬ right.InRange machine

/-- Nor do they overlap in the machine field, which keeps the low ten bits. -/
def FieldsDisjoint (left right : ServerConfig) : Prop :=
  ∀ leftMachine rightMachine, left.InRange leftMachine → right.InRange rightMachine →
    leftMachine % 1024 ≠ rightMachine % 1024

/-- Disjoint ranges suffice where the field can hold every machine ID. -/
theorem RangesDisjoint.fieldsDisjoint {left right : ServerConfig}
    (disjoint : RangesDisjoint left right)
    (leftFits : left.shardOffset + left.numWorkers ≤ 1024)
    (rightFits : right.shardOffset + right.numWorkers ≤ 1024) : FieldsDisjoint left right := by
  intro leftMachine rightMachine inLeft inRight same
  have leftLt := inLeft.2
  have rightLt := inRight.2
  rw [Nat.mod_eq_of_lt (by omega), Nat.mod_eq_of_lt (by omega)] at same
  exact disjoint leftMachine inLeft (same ▸ inRight)

/-- Every emitted ID carries the machine field of a worker of the server. -/
theorem Producing.machine_of_emitted {config : ServerConfig} {state : State}
    (producing : Producing config state) {id : ServerId} (emitted : id ∈ state.emitted config) :
    ∃ machine, config.InRange machine ∧ id.machineId.toNat = machine % 1024 := by
  obtain ⟨worker, known, member⟩ := List.mem_flatMap.mp emitted
  have inRange : worker < config.numWorkers := List.mem_range.mp known
  refine ⟨config.shardOffset + worker, ⟨Nat.le_add_right _ _, by omega⟩, ?_⟩
  rw [(producing worker).machineId id member, config.toNat_workerMachine]
  rfl

/-- No two runs emit the same ID, whatever the clocks read and whatever is served. -/
def NeverCollide (left right : ServerConfig) : Prop :=
  ∀ leftLabels rightLabels leftState rightState, (∀ label ∈ leftLabels, Readable label) →
    (∀ label ∈ rightLabels, Readable label) →
    Transition.run (step left) (initial left) leftLabels = some leftState →
    Transition.run (step right) (initial right) rightLabels = some rightState →
    ∀ id ∈ leftState.emitted left, id ∉ rightState.emitted right

theorem FieldsDisjoint.neverCollide {left right : ServerConfig}
    (disjoint : FieldsDisjoint left right) : NeverCollide left right := by
  intro leftLabels rightLabels leftState rightState leftReadable rightReadable leftRan rightRan
    id inLeft inRight
  obtain ⟨leftMachine, leftIn, leftField⟩ :=
    (Producing.run leftReadable leftRan).machine_of_emitted inLeft
  obtain ⟨rightMachine, rightIn, rightField⟩ :=
    (Producing.run rightReadable rightRan).machine_of_emitted inRight
  exact disjoint leftMachine rightMachine leftIn rightIn (leftField.symm.trans rightField)

/-- Workers with one machine field emit the same first ID. -/
theorem firstId_eq {left right : ServerConfig} {leftWorker rightWorker : Nat}
    (same : left.machineField leftWorker = right.machineField rightWorker) :
    firstId (left.machineId leftWorker) = firstId (right.machineId rightWorker) := by
  have fields : left.workerMachine leftWorker = right.workerMachine rightWorker := by
    apply BitVec.eq_of_toNat_eq
    rw [left.toNat_workerMachine, right.toNat_workerMachine, same]
  exact congrArg (SnowflakeId.fromComponents 1#_ · 0#_) fields

theorem NeverCollide.fieldsDisjoint {left right : ServerConfig} (leftChecked : left.Checked)
    (rightChecked : right.Checked) (leftServes : left.Serves) (rightServes : right.Serves)
    (never : NeverCollide left right) : FieldsDisjoint left right := by
  intro leftMachine rightMachine leftIn rightIn same
  obtain ⟨leftWorker, rfl⟩ := Nat.exists_eq_add_of_le leftIn.1
  obtain ⟨rightWorker, rfl⟩ := Nat.exists_eq_add_of_le rightIn.1
  obtain ⟨leftLabels, leftState, leftReadable, leftRan, inLeft⟩ :=
    emits_firstId leftChecked leftServes (Nat.lt_of_add_lt_add_left leftIn.2)
  obtain ⟨rightLabels, rightState, rightReadable, rightRan, inRight⟩ :=
    emits_firstId rightChecked rightServes (Nat.lt_of_add_lt_add_left rightIn.2)
  refine never leftLabels rightLabels leftState rightState leftReadable rightReadable leftRan
    rightRan _ inLeft ?_
  rw [firstId_eq same]
  exact inRight

/-- Two accepted servers never emit the same ID exactly when, if both serve requests at
all, their workers have different machine fields. -/
theorem never_collide_iff_fields_disjoint (left right : ServerConfig)
    (leftAccepted : left.Accepted) (rightAccepted : right.Accepted) :
    NeverCollide left right ↔ (left.Serves → right.Serves → FieldsDisjoint left right) := by
  constructor
  · intro never leftServes rightServes
    exact never.fieldsDisjoint leftAccepted.checked rightAccepted.checked leftServes rightServes
  · intro disjoint leftLabels rightLabels leftState rightState leftReadable rightReadable leftRan
      rightRan id inLeft inRight
    have both : FieldsDisjoint left right :=
      disjoint (serves_of_emitted leftRan inLeft) (serves_of_emitted rightRan inRight)
    exact both.neverCollide leftLabels rightLabels leftState rightState leftReadable rightReadable
      leftRan rightRan id inLeft inRight

/-- A request for one ID, up to the worker's send. -/
def emittingRun : List Label :=
  List.flatten [[.arrive 1], List.replicate 8 (.call 0), List.replicate 5 (.work 0 5#_)]

/-- The ID that a single worker emits in its fifth millisecond. -/
def emittedAt (shardOffset : Nat) : ServerId :=
  SnowflakeId.fromComponents 5#_ (BitVec.ofNat _ shardOffset) 0#_

theorem readable_emittingRun : ∀ label ∈ emittingRun, Readable label := by
  rw [← List.forall_iff_forall_mem]
  decide +kernel

theorem nodeAt_one_accepted : (nodeAt 1).Accepted :=
  ⟨⟨1000, 1, 1, 1, 8, 3, by decide, by decide, by decide, by decide, by decide, by decide⟩,
    by decide +kernel⟩

/-- Neighbouring offsets. -/
theorem never_collide_iff_fields_disjoint_neighbours :
    ∃ leftState rightState,
      Transition.run (step (nodeAt 0)) (initial (nodeAt 0)) emittingRun = some leftState ∧
      Transition.run (step (nodeAt 1)) (initial (nodeAt 1)) emittingRun = some rightState ∧
      leftState.emitted (nodeAt 0) = [emittedAt 0] ∧
      rightState.emitted (nodeAt 1) = [emittedAt 1] ∧
      ∀ id ∈ leftState.emitted (nodeAt 0), id ∉ rightState.emitted (nodeAt 1) := by
  have leftObserved : (Transition.run (step (nodeAt 0)) (initial (nodeAt 0)) emittingRun).map
      (State.emitted (nodeAt 0)) = some [emittedAt 0] := by decide +kernel
  have rightObserved : (Transition.run (step (nodeAt 1)) (initial (nodeAt 1)) emittingRun).map
      (State.emitted (nodeAt 1)) = some [emittedAt 1] := by decide +kernel
  obtain ⟨leftState, leftRan, leftEmitted⟩ := Option.map_eq_some_iff.mp leftObserved
  obtain ⟨rightState, rightRan, rightEmitted⟩ := Option.map_eq_some_iff.mp rightObserved
  refine ⟨leftState, rightState, leftRan, rightRan, leftEmitted, rightEmitted, ?_⟩
  have disjoint : RangesDisjoint (nodeAt 0) (nodeAt 1) := by
    rintro machine ⟨_, leftLt⟩ ⟨rightLe, _⟩
    simp only [nodeAt] at leftLt rightLe
    omega
  have never : NeverCollide (nodeAt 0) (nodeAt 1) :=
    (never_collide_iff_fields_disjoint (nodeAt 0) (nodeAt 1) nodeAt_zero_accepted
      nodeAt_one_accepted).mpr fun _ _ => disjoint.fieldsDisjoint (by decide) (by decide)
  exact never emittingRun emittingRun leftState rightState readable_emittingRun
    readable_emittingRun leftRan rightRan

/-- Offsets 0 and 1024: the ranges are disjoint, both are accepted, and the second
machine ID is folded onto the first. -/
theorem disjoint_ranges_collide :
    ∃ leftArgs rightArgs left right leftState rightState id,
      ServerConfig.tryFrom leftArgs = .ok left ∧ ServerConfig.tryFrom rightArgs = .ok right ∧
      RangesDisjoint left right ∧ (∀ label ∈ emittingRun, Readable label) ∧
      Transition.run (step left) (initial left) emittingRun = some leftState ∧
      Transition.run (step right) (initial right) emittingRun = some rightState ∧
      id ∈ leftState.emitted left ∧ id ∈ rightState.emitted right := by
  have leftObserved : (Transition.run (step (nodeAt 0)) (initial (nodeAt 0)) emittingRun).map
      (State.emitted (nodeAt 0)) = some [emittedAt 0] := by decide +kernel
  have rightObserved : (Transition.run (step (nodeAt 1024)) (initial (nodeAt 1024))
      emittingRun).map (State.emitted (nodeAt 1024)) = some [emittedAt 0] := by decide +kernel
  obtain ⟨leftState, leftRan, leftEmitted⟩ := Option.map_eq_some_iff.mp leftObserved
  obtain ⟨rightState, rightRan, rightEmitted⟩ := Option.map_eq_some_iff.mp rightObserved
  refine ⟨⟨1000, 0, 1, 1, 8, 3, by decide, by decide, by decide, by decide, by decide, by decide⟩,
    ⟨1000, 1024, 1, 1, 8, 3, by decide, by decide, by decide, by decide, by decide, by decide⟩,
    nodeAt 0, nodeAt 1024, leftState, rightState, emittedAt 0, by decide +kernel,
    by decide +kernel, ?_, readable_emittingRun, leftRan, rightRan, by simp [leftEmitted],
    by simp [rightEmitted]⟩
  rintro machine ⟨_, leftLt⟩ ⟨rightLe, _⟩
  simp only [nodeAt] at leftLt rightLe
  omega

end Ferroid.Server
