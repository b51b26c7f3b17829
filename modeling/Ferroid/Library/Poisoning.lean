import Ferroid.Library.LockedCell

/-!
Contract: what a panic under the mutex does to everyone who comes later.

Owns the rule that a cell is poisoned exactly by a panic under a mutex that records
them, that a cell which is not poisoned refuses nobody, and that a poisoned one is
frozen: it keeps its state for good and answers every caller with the error.

Does not own the interleaving semantics (`Library.LockedCell`).
-/

namespace Ferroid.Library.LockedCell

open Ferroid.Library.Replay

variable {State Clock Draw Result Thread : Type}

def Label.isPanic : Label Thread Clock Draw → Bool
  | .panic _ => true
  | .readClock _ _ => false
  | .critical _ _ => false

/-- An answer that reports a poisoned lock. -/
def Return.IsError (answer : Return State Result Thread) : Prop :=
  answer.installed = none ∧ answer.result = none

section Runs

variable [DecidableEq Thread] {poisons : Bool}
  {critical : State → Clock → Draw → Outcome State Draw Result}
  {system next : System State Clock Draw Result Thread} {label : Label Thread Clock Draw}

/-- What one step can do, as far as poisoning is concerned. -/
theorem poisoning_of_step (stepped : step poisons critical system label = some next) :
    next.poisoned = (system.poisoned || (poisons && label.isPanic)) ∧
      (system.poisoned = true → next.cell = system.cell ∧ next.updates = system.updates) ∧
      ∃ answers, next.returns = system.returns ++ answers ∧
        ∀ answer ∈ answers, (system.poisoned = true → answer.IsError) ∧
          (system.poisoned = false → answer.result.isSome = true) := by
  cases moves_of_step stepped with
  | readClock thread now =>
      exact ⟨by simp [Label.isPanic], fun _ => ⟨rfl, rfl⟩, [], by simp, by simp⟩
  | refuse thread value now timed poisoned =>
      refine ⟨by simp [Label.isPanic], fun _ => ⟨rfl, rfl⟩, [⟨thread, none, none⟩], rfl, ?_⟩
      rw [List.forall_mem_singleton, poisoned]
      exact ⟨fun _ => ⟨rfl, rfl⟩, Bool.noConfusion⟩
  | serve thread value now timed sound =>
      rw [sound]
      refine ⟨by simp [Label.isPanic], Bool.noConfusion, _, rfl, ?_⟩
      rw [List.forall_mem_singleton]
      exact ⟨Bool.noConfusion, fun _ => rfl⟩
  | panic thread now timed sound =>
      rw [sound]
      exact ⟨by simp [Label.isPanic], Bool.noConfusion, [], by simp, by simp⟩

/-- A lock that records panics is poisoned by the first one, and by nothing else. -/
theorem poisoned_of_run {labels : List (Label Thread Clock Draw)}
    (ran : Transition.run (step poisons critical) system labels = some next) :
    next.poisoned = (system.poisoned || (poisons && labels.any Label.isPanic)) := by
  induction labels generalizing system with
  | nil =>
      cases ran
      simp
  | cons label rest inductionHypothesis =>
      obtain ⟨after, stepped, continued⟩ := Transition.run_cons.mp ran
      rw [inductionHypothesis continued, (poisoning_of_step stepped).1, List.any_cons,
        Bool.or_assoc, Bool.and_or_distrib_left]

/-- A poisoned cell is frozen. -/
theorem frozen_of_run {labels : List (Label Thread Clock Draw)} (poisoned : system.poisoned = true)
    (ran : Transition.run (step poisons critical) system labels = some next) :
    next.cell = system.cell ∧ next.updates = system.updates ∧
      ∃ answers, next.returns = system.returns ++ answers ∧
        ∀ answer ∈ answers, answer.IsError := by
  induction labels generalizing system with
  | nil =>
      cases ran
      exact ⟨rfl, rfl, [], by simp, by simp⟩
  | cons label rest inductionHypothesis =>
      obtain ⟨after, stepped, continued⟩ := Transition.run_cons.mp ran
      obtain ⟨stays, keeps, first, firstReturns, firstErrors⟩ := poisoning_of_step stepped
      rw [poisoned, Bool.true_or] at stays
      obtain ⟨sameCell, sameUpdates⟩ := keeps poisoned
      obtain ⟨restCell, restUpdates, later, laterReturns, laterErrors⟩ :=
        inductionHypothesis stays continued
      refine ⟨restCell.trans sameCell, restUpdates.trans sameUpdates, first ++ later, ?_, ?_⟩
      · rw [laterReturns, firstReturns, List.append_assoc]
      · rw [List.forall_mem_append]
        exact ⟨fun answer member => (firstErrors answer member).1 poisoned, laterErrors⟩

/-- Until then nobody is refused. -/
theorem answered_of_run {labels : List (Label Thread Clock Draw)}
    (notPoisoned : next.poisoned = false)
    (ran : Transition.run (step poisons critical) system labels = some next)
    (answered : ∀ answer ∈ system.returns, answer.result.isSome = true) :
    ∀ answer ∈ next.returns, answer.result.isSome = true := by
  induction labels generalizing system with
  | nil =>
      cases ran
      exact answered
  | cons label rest inductionHypothesis =>
      obtain ⟨after, stepped, continued⟩ := Transition.run_cons.mp ran
      have never := poisoned_of_run ran
      rw [notPoisoned, eq_comm, Bool.or_eq_false_iff] at never
      obtain ⟨_, _, answers, returns, results⟩ := poisoning_of_step stepped
      apply inductionHypothesis continued
      rw [returns, List.forall_mem_append]
      exact ⟨answered, fun answer member => (results answer member).2 never.1⟩

end Runs

end Ferroid.Library.LockedCell
