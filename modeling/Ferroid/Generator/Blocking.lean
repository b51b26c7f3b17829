import Ferroid.Generator.Backoff
import Ferroid.Generator.Snowflake.Shared
import Ferroid.Generator.Ulid.Shared

/-!
Contract: the blocking calls of the basic and the lock generators.

Owns `try_poll_id` and `next_id` of each of them for a single caller, and the
proof that all four compare the reading with the tick of their state.

Does not own what follows from that (`Generator.Backoff`), nor callers that share
a generator (`Generator.Snowflake.Shared`, `Generator.Ulid.Shared`).
-/

namespace Ferroid.Generator

open Ferroid.Id
open Ferroid.Library

/-- `Error` of a build with the poisoning mutex. -/
inductive Error where
  | lockPoisoned
deriving DecidableEq, Repr

/-- The error of a generator that cannot fail. -/
abbrev Infallible := Empty

/-! ## Snowflake -/

section Snowflake

variable {layout : SnowflakeLayout}

def BasicSnowflakeGenerator.tryPollId :
    TryPoll (SnowflakeId layout) Infallible (BasicSnowflakeGenerator layout) layout.Ty :=
  infallible BasicSnowflakeGenerator.pollId

/-- The generator behind its mutex, as its only caller finds it. A mutex that does
not record panics is never poisoned. -/
structure LockSnowflakeGenerator (layout : SnowflakeLayout) where
  state : SnowflakeId layout
  poisoned : Bool
deriving DecidableEq, Repr

namespace LockSnowflakeGenerator

def fromComponents (timestamp machineId sequence : layout.Ty) : LockSnowflakeGenerator layout :=
  ⟨SnowflakeId.fromComponents timestamp machineId sequence, false⟩

def tryPollId (self : LockSnowflakeGenerator layout) (now : layout.Ty) :
    LockSnowflakeGenerator layout × Except Error (SnowflakePoll layout) :=
  if self.poisoned then
    (self, .error .lockPoisoned)
  else
    let outcome := critical self.state now ()
    ({ self with state := outcome.state }, .ok outcome.result)

/-- The critical section is a poll of the basic generator. -/
theorem critical_eq_pollId (id : SnowflakeId layout) (now : layout.Ty) :
    (critical id now ()).state = (BasicSnowflakeGenerator.pollId ⟨id⟩ now).1.state ∧
      (critical id now ()).result = (BasicSnowflakeGenerator.pollId ⟨id⟩ now).2 := by
  simp only [critical, BasicSnowflakeGenerator.pollId]
  cases compare now.toNat id.timestamp.toNat with
  | eq => cases id.hasSequenceRoom <;> exact ⟨rfl, rfl⟩
  | gt | lt => exact ⟨rfl, rfl⟩

/-- For a caller that is alone, `tryPollId` is one turn of the shared generator. -/
theorem tryPollId_run_alone {Thread : Type} [DecidableEq Thread] {poisons : Bool}
    {system : System layout Thread} {thread : Thread} (idle : system.phase thread = .idle)
    (now : layout.Ty) :
    ∃ next answer, Transition.run (LockedCell.step poisons critical) system
        [.readClock thread now, .critical thread ()] = some next ∧
      next.returns = system.returns ++ [answer] ∧
      tryPollId ⟨system.cell, system.poisoned⟩ now =
        (⟨next.cell, next.poisoned⟩, answer.result.elim (.error .lockPoisoned) .ok) := by
  obtain ⟨next, answer, ran, returned, kept, onPoisoned, onHealthy⟩ :=
    LockedCell.run_alone idle now ()
  refine ⟨next, answer, ran, returned, ?_⟩
  cases poisoned : system.poisoned with
  | true =>
      obtain ⟨cell, failed⟩ := onPoisoned poisoned
      rw [cell, kept, poisoned, failed]
      rfl
  | false =>
      obtain ⟨cell, answered⟩ := onHealthy poisoned
      rw [cell, kept, poisoned, answered]
      rfl

end LockSnowflakeGenerator

theorem BasicSnowflakeGenerator.comparesTicks (layout : SnowflakeLayout) :
    ComparesTicks tryPollId (fun self : BasicSnowflakeGenerator layout => self.state.timestamp)
      (fun self => self.state.sequence = layout.maxSequence) (fun _ => True) :=
  .of_compare (fun self => (⟨self.state.incrementSequence⟩, self.state.incrementSequence))
    (fun self now =>
      (⟨self.state.rolloverToTimestamp now⟩, self.state.rolloverToTimestamp now))
    SnowflakeLayout.width_pos (fun self => self.state.hasSequenceRoom_eq_false_iff)
    fun _ _ => rfl

theorem LockSnowflakeGenerator.comparesTicks (layout : SnowflakeLayout) :
    ComparesTicks tryPollId (fun self : LockSnowflakeGenerator layout => self.state.timestamp)
      (fun self => self.state.sequence = layout.maxSequence)
      (fun self => self.poisoned = false) := by
  apply (BasicSnowflakeGenerator.comparesTicks layout).lift
    (fun self : LockSnowflakeGenerator layout => ⟨self.state⟩)
    (fun self inner => { self with state := inner.state })
  · intro self
    rfl
  · intro self now healthy
    obtain ⟨state, result⟩ := critical_eq_pollId self.state now
    simp only [tryPollId, healthy, Bool.false_eq_true, if_false, state, result]
  · intro self now failed
    have poisoned : self.poisoned = true := Bool.eq_true_of_not_eq_false failed
    exact ⟨.lockPoisoned, by simp only [tryPollId, poisoned, if_true]⟩

end Snowflake

/-! ## Monotonic ULID -/

section Ulid

variable {layout : UlidLayout}

def BasicMonoUlidGenerator.tryPollId (rng : Nat → layout.Ty) :
    TryPoll (UlidId layout) Infallible (BasicMonoUlidGenerator layout) layout.Ty :=
  infallible (BasicMonoUlidGenerator.pollId rng)

/-- As `LockSnowflakeGenerator`, with the numbers drawn from the random source. -/
structure LockMonoUlidGenerator (layout : UlidLayout) where
  state : UlidId layout
  drawn : Nat
  poisoned : Bool
deriving DecidableEq, Repr

namespace LockMonoUlidGenerator

def fromComponents (timestamp random : layout.Ty) : LockMonoUlidGenerator layout :=
  ⟨UlidId.fromComponents timestamp random, 0, false⟩

def tryPollId (rng : Nat → layout.Ty) (self : LockMonoUlidGenerator layout) (now : layout.Ty) :
    LockMonoUlidGenerator layout × Except Error (UlidPoll layout) :=
  if self.poisoned then
    (self, .error .lockPoisoned)
  else
    let outcome := critical self.state now (rng self.drawn)
    ({ self with
        state := outcome.state
        drawn := self.drawn + outcome.drawn.toList.length }, .ok outcome.result)

/-- The critical section is a poll of the basic generator with the same draw. -/
theorem critical_eq_pollId (rng : Nat → layout.Ty) (id : UlidId layout) (drawn : Nat)
    (now : layout.Ty) :
    let outcome := critical id now (rng drawn)
    BasicMonoUlidGenerator.pollId rng ⟨id, drawn⟩ now =
      (⟨outcome.state, drawn + outcome.drawn.toList.length⟩, outcome.result) := by
  simp only [critical, BasicMonoUlidGenerator.pollId]
  cases compare now.toNat id.timestamp.toNat with
  | eq => cases id.hasRandomRoom <;> rfl
  | gt | lt => rfl

/-- For a caller that is alone, `tryPollId` is one turn of the shared generator. -/
theorem tryPollId_run_alone {Thread : Type} [DecidableEq Thread] {poisons : Bool}
    {system : System layout Thread} {thread : Thread} (idle : system.phase thread = .idle)
    (rng : Nat → layout.Ty) (drawn : Nat) (now : layout.Ty) :
    ∃ next answer total, Transition.run (LockedCell.step poisons critical) system
        [.readClock thread now, .critical thread (rng drawn)] = some next ∧
      next.returns = system.returns ++ [answer] ∧
      tryPollId rng ⟨system.cell, drawn, system.poisoned⟩ now =
        (⟨next.cell, total, next.poisoned⟩, answer.result.elim (.error .lockPoisoned) .ok) := by
  obtain ⟨next, answer, ran, returned, kept, onPoisoned, onHealthy⟩ :=
    LockedCell.run_alone idle now (rng drawn)
  cases poisoned : system.poisoned with
  | true =>
      obtain ⟨cell, failed⟩ := onPoisoned poisoned
      refine ⟨next, answer, drawn, ran, returned, ?_⟩
      rw [cell, kept, poisoned, failed]
      rfl
  | false =>
      obtain ⟨cell, answered⟩ := onHealthy poisoned
      let total := drawn + (critical system.cell now (rng drawn)).drawn.toList.length
      refine ⟨next, answer, total, ran, returned, ?_⟩
      rw [cell, kept, poisoned, answered]
      rfl

end LockMonoUlidGenerator

theorem BasicMonoUlidGenerator.comparesTicks (rng : Nat → layout.Ty) :
    ComparesTicks (tryPollId rng)
      (fun self : BasicMonoUlidGenerator layout => self.state.timestamp)
      (fun self => self.state.random = layout.maxRandom) (fun _ => True) :=
  .of_compare
    (fun self => ({ self with state := self.state.incrementRandom }, self.state.incrementRandom))
    (fun self now =>
      (⟨self.state.rolloverToTimestamp now (rng self.drawn), self.drawn + 1⟩,
        self.state.rolloverToTimestamp now (rng self.drawn)))
    UlidLayout.width_pos (fun self => self.state.hasRandomRoom_eq_false_iff)
    fun _ _ => rfl

theorem LockMonoUlidGenerator.comparesTicks (rng : Nat → layout.Ty) :
    ComparesTicks (tryPollId rng)
      (fun self : LockMonoUlidGenerator layout => self.state.timestamp)
      (fun self => self.state.random = layout.maxRandom) (fun self => self.poisoned = false) := by
  apply (BasicMonoUlidGenerator.comparesTicks rng).lift
    (fun self : LockMonoUlidGenerator layout => ⟨self.state, self.drawn⟩)
    (fun self inner => { self with state := inner.state, drawn := inner.drawn })
  · intro self
    rfl
  · intro self now healthy
    rw [critical_eq_pollId]
    simp only [tryPollId, healthy, Bool.false_eq_true, if_false]
  · intro self now failed
    have poisoned : self.poisoned = true := Bool.eq_true_of_not_eq_false failed
    exact ⟨.lockPoisoned, by simp only [tryPollId, poisoned, if_true]⟩

end Ulid

end Ferroid.Generator
