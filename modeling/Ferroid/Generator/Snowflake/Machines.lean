import Ferroid.Generator.Snowflake.Shared

/-!
Contract: generators of different machine IDs never return the same ID.

Owns one description of a run for all three kinds of generator and the
two-run theorem over completely arbitrary clocks and interleavings.

Does not own how a server assigns machine IDs to its workers.
-/

namespace Ferroid.Generator

open Ferroid.Id
open Ferroid.Library
open Ferroid.Library.Replay

variable {layout : SnowflakeLayout} {Thread : Type}

/-- One whole run of a generator: its kind with the clock readings of its polls,
or the schedule of the threads that share it. -/
inductive GeneratorRun (layout : SnowflakeLayout) (Thread : Type) where
  | basic (readings : List layout.Ty)
  | lock (poisons : Bool) (labels : List (LockedCell.Label Thread layout.Ty Unit))
  | atomic (labels : List (OptimisticCell.Label Thread layout.Ty Unit))

/-- The IDs returned by a run from the state `origin`; `none` when the labels
are no schedule. -/
def GeneratorRun.returned [DecidableEq Thread] (origin : SnowflakeId layout) :
    GeneratorRun layout Thread → Option (List (SnowflakeId layout))
  | .basic readings => some (readyIds (pollAll BasicSnowflakeGenerator.pollId ⟨origin⟩ readings))
  | .lock poisons labels =>
      (Transition.run (LockedCell.step poisons LockSnowflakeGenerator.critical)
        (LockedCell.start origin) labels).map
          fun system => (LockSystem.readyAnswers system).map Prod.snd
  | .atomic labels =>
      (Transition.run (OptimisticCell.step (AtomicSnowflakeGenerator.protocol layout))
        (OptimisticCell.start origin) labels).map
          fun system => (AtomicSystem.readyAnswers system).map Prod.snd

/-! ## The machine field of a run -/

private theorem machineId_of_updates {machineId : layout.Ty} {origin cell : SnowflakeId layout}
    {updates : List (Update (SnowflakeId layout) layout.Ty Unit Thread)}
    (serves : BasicSnowflakeGenerator.Serves machineId ⟨origin⟩)
    (replays : (AtomicSnowflakeGenerator.protocol layout).Replays origin updates cell) :
    ∀ id ∈ (updates.map fun update => (update.thread, update.next)).map Prod.snd,
      id.machineId = machineId := by
  intro id member
  simp only [List.map_map, List.mem_map, Function.comp_apply] at member
  obtain ⟨update, updated, rfl⟩ := member
  have keeps := AtomicSnowflakeGenerator.keeps machineId fun _ => True
  exact ((replays_good keeps serves (fun _ _ => trivial) replays).2 update updated).2

/-- Every ID of every run carries the machine ID the generator was created with. -/
theorem GeneratorRun.machineId_of_returned [DecidableEq Thread] {machineId : layout.Ty}
    {origin : SnowflakeId layout}
    (serves : BasicSnowflakeGenerator.Serves machineId ⟨origin⟩)
    {run : GeneratorRun layout Thread} {ids : List (SnowflakeId layout)}
    (returned : run.returned origin = some ids) :
    ∀ id ∈ ids, id.machineId = machineId := by
  have keeps := AtomicSnowflakeGenerator.keeps machineId fun _ => True
  have polls := AtomicSnowflakeGenerator.answersPolls layout
  cases run with
  | basic readings =>
      cases returned
      intro id member
      exact (BasicSnowflakeGenerator.serves_of_mem_readyIds serves readings id member).2
  | lock poisons labels =>
      obtain ⟨system, ran, rfl⟩ := Option.map_eq_some_iff.mp returned
      have inv := LockedCell.Inv.run keeps serves (LockSnowflakeGenerator.implements layout)
        (fun _ _ _ => trivial) ran
      rw [LockSystem.readyAnswers_eq polls inv]
      exact machineId_of_updates serves inv.replays
  | atomic labels =>
      obtain ⟨system, ran, rfl⟩ := Option.map_eq_some_iff.mp returned
      have inv := OptimisticCell.Inv.run keeps serves (fun _ _ _ => trivial) ran
      rw [AtomicSystem.readyAnswers_eq polls inv]
      exact machineId_of_updates serves inv.replays

/-! ## Two runs -/

/-- Whatever the kinds of two generators, their clocks and their schedules, no ID
returned by one is returned by the other. -/
theorem different_machines_never_collide (layout : SnowflakeLayout)
    (LeftThread RightThread : Type) [DecidableEq LeftThread] [DecidableEq RightThread]
    (leftMachine rightMachine : layout.Ty)
    (leftFits : leftMachine ≤ layout.maxMachineId)
    (rightFits : rightMachine ≤ layout.maxMachineId) (different : leftMachine ≠ rightMachine)
    (leftTime leftSequence rightTime rightSequence : layout.Ty)
    (left : GeneratorRun layout LeftThread) (right : GeneratorRun layout RightThread)
    (leftIds rightIds : List (SnowflakeId layout))
    (leftReturned : left.returned
      (SnowflakeId.fromComponents leftTime leftMachine leftSequence) = some leftIds)
    (rightReturned : right.returned
      (SnowflakeId.fromComponents rightTime rightMachine rightSequence) = some rightIds) :
    ∀ id ∈ leftIds, id ∉ rightIds := by
  intro id inLeft inRight
  have leftServes := BasicSnowflakeGenerator.serves_fromComponents leftTime leftMachine
    leftSequence leftFits
  have rightServes := BasicSnowflakeGenerator.serves_fromComponents rightTime rightMachine
    rightSequence rightFits
  apply different
  calc leftMachine = id.machineId :=
        (GeneratorRun.machineId_of_returned leftServes leftReturned id inLeft).symm
    _ = rightMachine := GeneratorRun.machineId_of_returned rightServes rightReturned id inRight

/-- A basic and an atomic generator over the same readings, one of them above the
timestamp field. -/
theorem different_machines_never_collide_twitter :
    let overflowing : SnowflakeTwitterId.Ty := SnowflakeTwitterId.maxTimestamp + 8#_
    let left : GeneratorRun SnowflakeTwitterId Bool := .basic [5#_, overflowing]
    let right : GeneratorRun SnowflakeTwitterId Bool := .atomic [.readClock false 5#_,
      .readClock true overflowing, .load false, .compareExchange false, .load true,
      .compareExchange true]
    ∃ leftIds rightIds, left.returned (SnowflakeId.fromComponents 0#_ 1#_ 0#_) = some leftIds ∧
      right.returned (SnowflakeId.fromComponents 0#_ 2#_ 0#_) = some rightIds ∧
      leftIds.length = 2 ∧ rightIds.length = 2 ∧ ∀ id ∈ leftIds, id ∉ rightIds := by
  intro overflowing left right
  have leftLength : (left.returned (SnowflakeId.fromComponents 0#_ 1#_ 0#_)).map List.length =
      some 2 := by decide +kernel
  have rightLength : (right.returned (SnowflakeId.fromComponents 0#_ 2#_ 0#_)).map List.length =
      some 2 := by decide +kernel
  obtain ⟨leftIds, leftReturned, leftTwo⟩ := Option.map_eq_some_iff.mp leftLength
  obtain ⟨rightIds, rightReturned, rightTwo⟩ := Option.map_eq_some_iff.mp rightLength
  refine ⟨leftIds, rightIds, leftReturned, rightReturned, leftTwo, rightTwo, ?_⟩
  exact different_machines_never_collide SnowflakeTwitterId Bool Bool 1#_ 2#_ (by decide +kernel)
    (by decide +kernel) (by decide +kernel) 0#_ 0#_ 0#_ 0#_ left right leftIds rightIds
    leftReturned rightReturned

end Ferroid.Generator
