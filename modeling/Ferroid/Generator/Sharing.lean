import Ferroid.Generator.Snowflake.Shared
import Ferroid.Generator.Ulid.Shared
import Ferroid.Library.Contention

/-!
Contract: what threads that share one atomic generator cost each other.

Owns the price of sharing without a lock, IDs lost to a race and asked for again: every
lost race is paid for by an ID that another thread got.

Does not own the order of the IDs (`Generator.Shared`), nor the lock generators
(`Generator.Turns`).
-/

namespace Ferroid.Generator

open Ferroid.Id
open Ferroid.Library
open Ferroid.Library.Replay

variable {ID Ty Draw Thread : Type} [DecidableEq Thread]

/-- Ready answers are updates, so they pay for the lost races. -/
theorem lostRaces_le_readyAnswers [Fintype Thread] [DecidableEq ID] [DecidableEq Ty]
    {protocol : Protocol ID Ty Draw (Poll ID Ty)} (polls : AnswersPolls protocol) {origin : ID}
    {labels : List (OptimisticCell.Label Thread Ty Draw)} {system : AtomicSystem ID Ty Draw Thread}
    (ran : Transition.run (OptimisticCell.step protocol) (OptimisticCell.start origin) labels =
      some system) :
    OptimisticCell.lostRaces protocol system ≤
      (Fintype.card Thread - 1) * (AtomicSystem.readyAnswers system).length := by
  have keeps : protocol.Keeps (fun _ => True) (fun _ => True) := fun _ _ _ _ _ _ _ => trivial
  have inv := OptimisticCell.Inv.run keeps trivial (fun _ _ _ => trivial) ran
  rw [AtomicSystem.readyAnswers_eq polls inv, List.length_map]
  refine OptimisticCell.lostRaces_le ?_ ?_ ran
  · intro state same
    rw [polls.ready] at same
    have pending := polls.lost
    rw [← same] at pending
    exact Poll.not_isPending_ready state pending
  · intro state now result waits
    exact (polls.waits waits).2

/-- Any number of threads sharing one atomic generator, at whatever readings of the clock:
the polls that lost a race are at most as many as the IDs issued, times the other
threads. A thread alone never loses one. -/
theorem lost_races_paid_for (Thread : Type) [Fintype Thread] [DecidableEq Thread] :
    (∀ (layout : SnowflakeLayout) (origin : SnowflakeId layout)
        (labels : List (OptimisticCell.Label Thread layout.Ty Unit))
        (system : AtomicSnowflakeGenerator.System layout Thread),
      Transition.run (OptimisticCell.step (AtomicSnowflakeGenerator.protocol layout))
          (OptimisticCell.start origin) labels = some system →
        (system.returns.countP fun answer => answer.result = .pending 0#(layout.width)) ≤
          (Fintype.card Thread - 1) * system.readyAnswers.length) ∧
      ∀ (layout : UlidLayout) (origin : UlidId layout)
        (labels : List (OptimisticCell.Label Thread layout.Ty layout.Ty))
        (system : AtomicMonoUlidGenerator.System layout Thread),
      Transition.run (OptimisticCell.step (AtomicMonoUlidGenerator.protocol layout))
          (OptimisticCell.start origin) labels = some system →
        (system.returns.countP fun answer => answer.result = .pending 0#(layout.width)) ≤
          (Fintype.card Thread - 1) * system.readyAnswers.length := by
  constructor
  · intro layout origin labels system ran
    exact lostRaces_le_readyAnswers (AtomicSnowflakeGenerator.answersPolls layout) ran
  · intro layout origin labels system ran
    exact lostRaces_le_readyAnswers (AtomicMonoUlidGenerator.answersPolls layout) ran

/-- Two threads, one lost race, two IDs. -/
theorem lost_races_paid_for_race :
    ∃ system : AtomicSnowflakeGenerator.System SnowflakeTwitterId Bool,
      Transition.run (OptimisticCell.step (AtomicSnowflakeGenerator.protocol _))
          (OptimisticCell.start (SnowflakeId.fromComponents 4#_ 3#_ 0#_)) raceLabels =
        some system ∧
      (system.returns.countP fun answer => answer.result = .pending 0#64) = 1 ∧
      1 ≤ system.readyAnswers.length := by
  have observed : (Transition.run (OptimisticCell.step (AtomicSnowflakeGenerator.protocol _))
      (OptimisticCell.start (SnowflakeId.fromComponents 4#_ 3#_ 0#_)) raceLabels).map
        (fun system : AtomicSnowflakeGenerator.System SnowflakeTwitterId Bool =>
          system.returns.countP fun answer => answer.result = .pending 0#64) = some 1 := by
    decide +kernel
  obtain ⟨system, ran, lost⟩ := Option.map_eq_some_iff.mp observed
  have paid := (lost_races_paid_for Bool).1 SnowflakeTwitterId _ raceLabels system ran
  rw [Fintype.card_bool, Nat.one_mul] at paid
  exact ⟨system, ran, lost, Nat.le_trans (Nat.le_of_eq lost.symm) paid⟩

end Ferroid.Generator
