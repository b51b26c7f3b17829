import Ferroid.Library.Transition
import Ferroid.Server.CallSteps

/-!
Contract: the permits of the inboxes.

Owns the invariant that messages and permits together fit an inbox and that permits
belong to the calls between their permit and their push, in every run: also in those
where the worker goes away in between.

Does not own what becomes of a request that is pushed too late.
-/

namespace Ferroid.Server

open Ferroid.Id
open Ferroid.Generator
open Ferroid.Library

/-! ## The invariant -/

/-- The feed task has a permit of that worker's inbox. -/
def CallPhase.Pushes (phase : CallPhase) (worker : Nat) : Prop :=
  ∃ remaining chunkSize, phase = .feeding remaining (.pushing worker chunkSize)

structure Permitted (state : State) : Prop where
  short : ∀ worker, (state.workers worker).inbox.length +
    (state.workers worker).permits.length ≤ inboxCapacity
  holder : ∀ worker index, index ∈ (state.workers worker).permits ↔
    (state.calls index).phase.Pushes worker

theorem permitted_initial (config : ServerConfig) : Permitted (initial config) where
  short _ := Nat.zero_le _
  holder worker index := by simp [initial, Call.absent, CallPhase.Pushes]

theorem Worker.HasRoom.inbox {worker : Worker} (room : worker.HasRoom) :
    worker.inbox.length < inboxCapacity :=
  Nat.lt_of_le_of_lt (Nat.le_add_right _ _) room

section Permits

variable {config : ServerConfig} {state next : State}

section Holder

variable {index remaining worker chunkSize : Nat}
  (at_phase : (state.calls index).phase = .feeding remaining (.pushing worker chunkSize))

include at_phase

/-- Who has a permit finds room in the inbox. -/
theorem Permitted.room (permitted : Permitted state) :
    (state.workers worker).inbox.length < inboxCapacity := by
  have member := (permitted.holder worker index).mpr ⟨remaining, chunkSize, at_phase⟩
  have some := List.length_pos_of_mem member
  have short := permitted.short worker
  omega

theorem Permitted.inbox_eq_nil (permitted : Permitted state) :
    (state.workers worker).inbox = [] :=
  List.eq_nil_of_length_eq_zero (Nat.lt_one_iff.mp (permitted.room at_phase))

/-- There is one permit, so nobody else has it. -/
theorem Permitted.permits_eq (permitted : Permitted state) :
    (state.workers worker).permits = [index] := by
  have member := (permitted.holder worker index).mpr ⟨remaining, chunkSize, at_phase⟩
  have short := permitted.short worker
  have one : (state.workers worker).permits.length = 1 := by
    have some := List.length_pos_of_mem member
    simp only [inboxCapacity] at short
    omega
  obtain ⟨only, isOnly⟩ := List.length_eq_one_iff.mp one
  rw [isOnly, List.mem_singleton] at member
  rw [isOnly, member]

theorem pushes_eq {other : Nat} (pushes : (state.calls index).phase.Pushes other) :
    other = worker := by
  obtain ⟨_, _, again⟩ := pushes
  rw [at_phase] at again
  cases again
  rfl

end Holder

/-! ## Steps -/

/-- A worker keeps its permits, and its inbox does not grow. -/
structure Relieves (before after : Worker) : Prop where
  permits : after.permits = before.permits
  inbox : after.inbox.length ≤ before.inbox.length

theorem WorkMoves.relieves {now : ServerLayout.Ty} {worker after : Worker}
    (moves : WorkMoves config state now worker after) : Relieves worker after := by
  cases moves with
  | takeShutdown inbox _ waiting =>
      refine ⟨rfl, ?_⟩
      rw [waiting, List.length_cons]
      exact Nat.le_succ _
  | _ => exact ⟨rfl, Nat.le_refl _⟩

theorem Moves.relieves {worker : Nat} {now : ServerLayout.Ty}
    (moves : Moves config state (.work worker now) next) (other : Nat) :
    Relieves (state.workers other) (next.workers other) := by
  have update : ∀ after, Relieves (state.workers worker) after →
      Relieves (state.workers other) (Function.update state.workers worker after other) := by
    intro after relieves
    by_cases same : other = worker
    · rw [same, Function.update_self]
      exact relieves
    · rw [Function.update_of_ne same]
      exact ⟨rfl, Nat.le_refl _⟩
  cases moves with
  | work _ _ after _ moves => exact update after moves.relieves
  | allocationPanic | stop | indexPanic =>
      rw [dropInbox_eq]
      exact update _ ⟨rfl, Nat.zero_le _⟩
  | takeStream _ _ request inbox _ _ waiting =>
      refine update _ ⟨rfl, ?_⟩
      rw [waiting, List.length_cons]
      exact Nat.le_succ _
  | finish | pushFull | pushRest => exact update _ ⟨rfl, Nat.le_refl _⟩

theorem CallMoves.not_pushes {call after : Call} {inflight : BitVec 64} {nextWorker : Nat}
    (moves : CallMoves config state call after inflight nextWorker) (worker : Nat) :
    ¬ call.phase.Pushes worker ∧ ¬ after.phase.Pushes worker := by
  cases moves with
  | giveUp remaining stage at_phase sending gone =>
      rcases sending with ⟨channel, chunk, rfl⟩ | ⟨error, rfl⟩ <;>
        simp [CallPhase.Pushes, at_phase]
  | _ => simp [CallPhase.Pushes, *]

theorem Call.pushes_mapChannel (call : Call) (number : Nat)
    (change : ChunkChannel → ChunkChannel) (worker : Nat) :
    (call.mapChannel number change).phase.Pushes worker ↔ call.phase.Pushes worker := by
  rcases call.mapChannel_cases number change with
    ⟨_, same⟩ | ⟨remaining, channel, _, at_phase, mapped⟩ |
      ⟨remaining, channel, chunk, _, at_phase, mapped⟩
  · rw [same]
  · simp [CallPhase.Pushes, mapped, at_phase]
  · simp [CallPhase.Pushes, mapped, at_phase]

/-- One call changes, and has a permit as before. -/
theorem Permitted.updateCall (permitted : Permitted state) {index : Nat} {call : Call}
    (calls : next.calls = Function.update state.calls index call)
    (workers : next.workers = state.workers)
    (same : ∀ worker, call.phase.Pushes worker ↔ (state.calls index).phase.Pushes worker) :
    Permitted next := by
  refine ⟨by rw [workers]; exact permitted.short, fun worker other => ?_⟩
  rw [workers, calls, permitted.holder]
  by_cases here : other = index
  · rw [here, Function.update_self, same]
  · rw [Function.update_of_ne here]

/-- A feed task takes a permit or uses it, and the worker does the books. -/
theorem Permitted.updateBoth (permitted : Permitted state) {index owner : Nat} {call : Call}
    {worker : Worker} (calls : next.calls = Function.update state.calls index call)
    (workers : next.workers = Function.update state.workers owner worker)
    (short : worker.inbox.length + worker.permits.length ≤ inboxCapacity)
    (others : ∀ other, other ≠ index →
      (other ∈ worker.permits ↔ other ∈ (state.workers owner).permits))
    (own : index ∈ worker.permits ↔ call.phase.Pushes owner)
    (elsewhere : ∀ other, other ≠ owner →
      ¬ (state.calls index).phase.Pushes other ∧ ¬ call.phase.Pushes other) :
    Permitted next := by
  constructor
  · rw [workers, Function.forall_update_iff state.workers fun _ worker =>
      worker.inbox.length + worker.permits.length ≤ inboxCapacity]
    exact ⟨short, fun other _ => permitted.short other⟩
  · intro other caller
    rw [workers, calls]
    by_cases isOwner : other = owner
    · rw [isOwner, Function.update_self]
      by_cases isIndex : caller = index
      · rw [isIndex, Function.update_self, own]
      · rw [Function.update_of_ne isIndex, others caller isIndex, permitted.holder]
    · rw [Function.update_of_ne isOwner]
      by_cases isIndex : caller = index
      · rw [isIndex, Function.update_self, permitted.holder]
        exact iff_of_false (elsewhere other isOwner).1 (elsewhere other isOwner).2
      · rw [Function.update_of_ne isIndex, permitted.holder]

/-- The calls stay, and the messages and permits of one worker change. -/
theorem Permitted.updateWorker (permitted : Permitted state) {owner : Nat} {worker : Worker}
    (calls : next.calls = state.calls)
    (workers : next.workers = Function.update state.workers owner worker)
    (short : worker.inbox.length + worker.permits.length ≤ inboxCapacity)
    (permits : worker.permits = (state.workers owner).permits) : Permitted next := by
  constructor
  · rw [workers, Function.forall_update_iff state.workers fun _ worker =>
      worker.inbox.length + worker.permits.length ≤ inboxCapacity]
    exact ⟨short, fun other _ => permitted.short other⟩
  · rw [workers, calls, Function.forall_update_iff state.workers fun other worker =>
      ∀ index, index ∈ worker.permits ↔ (state.calls index).phase.Pushes other]
    exact ⟨by rw [permits]; exact permitted.holder owner, fun other _ => permitted.holder other⟩

theorem Permitted.step {label : Label} (permitted : Permitted state)
    (absent : ∀ index, state.arrivals ≤ index → state.calls index = Call.absent)
    (stepped : Server.step config state label = some next) : Permitted next := by
  have moves := moves_of_step stepped
  cases label with
  | work worker now =>
      have relieves := moves.relieves
      refine ⟨fun other => ?_, fun other index => ?_⟩
      · have short := permitted.short other
        have fewer := (relieves other).inbox
        rw [(relieves other).permits]
        omega
      · rw [(relieves other).permits, permitted.holder]
        have stable : ∀ call number change,
            ((state.calls index).phase.Pushes other ↔ call.phase.Pushes other) →
            ((state.calls index).phase.Pushes other ↔
              (Call.mapChannel call number change).phase.Pushes other) := by
          intro call number change same
          rw [Call.pushes_mapChannel]
          exact same
        exact moves.work_calls stable Iff.rfl
  | arrive count =>
      cases moves with
      | arrive =>
          refine permitted.updateCall rfl rfl fun worker => ?_
          rw [absent _ (Nat.le_refl _)]
          simp [CallPhase.Pushes, Call.absent]
  | call index =>
      cases moves with
      | call _ after _ _ moves =>
          refine permitted.updateCall rfl rfl fun worker => ?_
          exact iff_of_false (moves.not_pushes worker).2 (moves.not_pushes worker).1
      | reserve _ remaining worker chunkSize at_phase up room =>
          refine permitted.updateBoth rfl rfl ?_ ?_ ?_ ?_
          · have free : _ < _ := room
            simp only [List.length_cons]
            omega
          · intro other different
            simp [different]
          · simp [CallPhase.Pushes]
          · intro other different
            simp [CallPhase.Pushes, at_phase, different.symm]
      | send _ remaining worker chunkSize at_phase =>
          have one := permitted.permits_eq at_phase
          have empty := permitted.inbox_eq_nil at_phase
          refine permitted.updateBoth rfl rfl ?_ ?_ ?_ ?_
          · simp [one, empty, inboxCapacity]
          · intro other different
            simp [one, different]
          · simp [one, CallPhase.Pushes]
          · intro other different
            exact ⟨fun pushes => different (pushes_eq at_phase pushes), by simp [CallPhase.Pushes]⟩
  | receive index =>
      cases moves with
      | receive => exact permitted.updateCall rfl rfl fun _ => Iff.rfl
  | disconnect index =>
      cases moves with
      | disconnect => exact permitted.updateCall rfl rfl fun _ => Iff.rfl
  | abort index =>
      cases moves with
      | abort => exact ⟨permitted.short, permitted.holder⟩
  | manage timeout =>
      cases moves with
      | notify _ index _ _ _ room =>
          refine permitted.updateWorker rfl rfl ?_ rfl
          have free : _ < _ := room
          simp only [List.length_append, List.length_singleton]
          omega
      | _ => exact ⟨permitted.short, permitted.holder⟩

end Permits

end Ferroid.Server
