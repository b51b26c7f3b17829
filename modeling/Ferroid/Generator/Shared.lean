import Ferroid.Generator.Status
import Ferroid.Library.LockedCell
import Ferroid.Library.OptimisticCell

/-!
Contract: a polled generator whose state sits in one shared cell.

Owns what a protocol must satisfy for its answers to be polls, the Ready answers
of a schedule, and the guarantees that the shared generators have in common:
their updates are a run of a sequential generator, Ready IDs are those updates,
no ABA, and refusals leave the state alone.

Does not own any concrete generator, nor the interleaving semantics
(`Library.OptimisticCell`, `Library.LockedCell`).
-/

namespace Ferroid.Generator

open Ferroid.Library
open Ferroid.Library.Replay

variable {ID Ty Draw Thread : Type}

/-- A protocol that answers polls: Ready with the installed ID, Pending when it
refuses, and a Pending of its own when a race is lost. -/
structure AnswersPolls (protocol : Protocol ID Ty Draw (Poll ID Ty)) : Prop where
  ready : ∀ id, protocol.ready id = .ready id
  lost : protocol.lost.IsPending
  waits : ∀ ⦃state now result⦄, protocol.plan state now = .wait result →
    result.IsPending ∧ result ≠ protocol.lost

/-- A schedule of threads sharing one generator by `compare_exchange`. -/
abbrev AtomicSystem (ID Ty Draw Thread : Type) :=
  OptimisticCell.System ID Ty Draw (Poll ID Ty) Thread

/-- A schedule of threads sharing one generator by a mutex. -/
abbrev LockSystem (ID Ty Draw Thread : Type) :=
  LockedCell.System ID Ty Draw (Poll ID Ty) Thread

/-- The Ready answers of an atomic generator, with the threads that got them. -/
def AtomicSystem.readyAnswers (system : AtomicSystem ID Ty Draw Thread) : List (Thread × ID) :=
  system.returns.filterMap fun answer => answer.result.ready?.map fun id => (answer.thread, id)

/-- The Ready answers of a lock generator; a poisoned lock answers with an error
instead. -/
def LockSystem.readyAnswers (system : LockSystem ID Ty Draw Thread) : List (Thread × ID) :=
  system.returns.filterMap fun answer =>
    (answer.result.bind Poll.ready?).map fun id => (answer.thread, id)

section Answers

variable {protocol : Protocol ID Ty Draw (Poll ID Ty)} {Good : ID → Prop}
  {Admissible : Ty → Prop} {origin : ID}

/-- An atomic answer is Ready exactly when its attempt installed a state. -/
theorem AtomicSystem.ready?_eq_installed (polls : AnswersPolls protocol)
    {system : AtomicSystem ID Ty Draw Thread}
    (inv : OptimisticCell.Inv protocol Good Admissible origin system)
    {answer : OptimisticCell.Return ID (Poll ID Ty) Thread} (member : answer ∈ system.returns) :
    answer.result.ready? = answer.installed := by
  have answerOk := inv.returnsOk answer member
  cases installed : answer.installed with
  | some state =>
      rw [answerOk.installed state installed, polls.ready]
      rfl
  | none =>
      rw [Poll.ready?_eq_none]
      rcases answerOk.refused installed with ⟨state, now, _, _, waits⟩ | ⟨lost, _⟩
      · exact (polls.waits waits).1
      · exact lost ▸ polls.lost

theorem AtomicSystem.readyAnswers_eq (polls : AnswersPolls protocol)
    {system : AtomicSystem ID Ty Draw Thread}
    (inv : OptimisticCell.Inv protocol Good Admissible origin system) :
    AtomicSystem.readyAnswers system =
      system.updates.map fun update => (update.thread, update.next) := by
  rw [← inv.answered, AtomicSystem.readyAnswers]
  apply List.filterMap_congr
  intro answer member
  rw [ready?_eq_installed polls inv member]

theorem LockSystem.readyAnswers_eq (polls : AnswersPolls protocol)
    {system : LockSystem ID Ty Draw Thread}
    (inv : LockedCell.Inv protocol Good Admissible origin system) :
    LockSystem.readyAnswers system =
      system.updates.map fun update => (update.thread, update.next) := by
  rw [← inv.answered, LockSystem.readyAnswers]
  apply List.filterMap_congr
  intro answer member
  have answerOk := inv.returnsOk answer member
  cases installed : answer.installed with
  | some state =>
      rw [answerOk.installed state installed, polls.ready]
      rfl
  | none =>
      cases result : answer.result with
      | none => rfl
      | some poll =>
          obtain ⟨state, now, _, _, waits⟩ := answerOk.refused installed poll result
          rw [Option.bind_some, Poll.ready?_eq_none.mpr (polls.waits waits).1]

end Answers

/-! ## Linearization -/

/-- The updates, in the order they take effect, are a sequential run from
`initial` to `final` over the readings they used, and the Ready answers are
exactly these updates: increasing overall and for each thread, so never equal. -/
structure Linearized {Generator : Type} [LT ID] [DecidableEq Thread]
    (poll : Generator → Ty → Generator × Poll ID Ty) (initial final : Generator)
    (updates : List (Update ID Ty Draw Thread)) (ready : List (Thread × ID)) : Prop where
  answers : (pollAll poll initial (updates.map Update.now)).map Polled.result =
    updates.map fun update => .ready update.next
  final_eq : afterAll poll initial (updates.map Update.now) = final
  ready_eq : ready = updates.map fun update => (update.thread, update.next)
  increasing : (ready.map Prod.snd).Pairwise (· < ·)
  perThread : ∀ thread, ((ready.filter fun answer => answer.1 = thread).map Prod.snd).Pairwise
    (· < ·)
  distinct : (ready.map Prod.snd).Nodup

/-- From a replay that is a sequential run to its linearization. -/
theorem linearized_of_replays {Generator : Type} [LT ID] [DecidableEq Thread]
    {protocol : Protocol ID Ty Draw (Poll ID Ty)} {Good : ID → Prop} {Admissible : Ty → Prop}
    {rank : ID → Nat} (rank_iff : ∀ left right : ID, left < right ↔ rank left < rank right)
    (grows : protocol.Grows Good Admissible rank)
    {origin cell : ID} {updates : List (Update ID Ty Draw Thread)} (good : Good origin)
    (admissible : ∀ update ∈ updates, Admissible update.now)
    (replays : protocol.Replays origin updates cell)
    {poll : Generator → Ty → Generator × Poll ID Ty} {initial final : Generator}
    (answers : (pollAll poll initial (updates.map Update.now)).map Polled.result =
      updates.map fun update => .ready update.next)
    (final_eq : afterAll poll initial (updates.map Update.now) = final)
    {ready : List (Thread × ID)}
    (ready_eq : ready = updates.map fun update => (update.thread, update.next)) :
    Linearized poll initial final updates ready := by
  obtain ⟨_, _, sorted⟩ := replays_increasing grows good admissible replays
  have increasing : ready.Pairwise fun left right => left.2 < right.2 := by
    rw [List.pairwise_map] at sorted
    rw [ready_eq, List.pairwise_map]
    exact sorted.imp fun less => (rank_iff _ _).mpr less
  have different : ∀ {left right : Thread × ID}, left.2 < right.2 → left.2 ≠ right.2 := by
    intro left right less same
    rw [rank_iff, same] at less
    exact Nat.lt_irrefl _ less
  exact ⟨answers, final_eq, ready_eq, List.pairwise_map.mpr increasing,
    fun thread => List.pairwise_map.mpr (increasing.filter _),
    List.pairwise_map.mpr (increasing.imp different)⟩

/-! ## What every interleaving guarantees -/

/-- An atomic generator. `loads` excludes ABA: the `k`-th update found exactly
`k` updates at its load. -/
structure AtomicGuarantees [DecidableEq ID] [DecidableEq Thread]
    (protocol : Protocol ID Ty Draw (Poll ID Ty)) (system : AtomicSystem ID Ty Draw Thread) :
    Prop where
  loads : system.updates.map Update.since = List.range system.updates.length
  lost : ∀ answer ∈ system.returns, answer.result = protocol.lost →
    ∃ update ∈ (system.updates.take answer.upto).drop answer.since,
      update.thread ≠ answer.thread
  pending_keeps : ∀ label next answer,
    OptimisticCell.step protocol system label = some next →
      next.returns = system.returns ++ [answer] → answer.result.IsPending →
        next.cell = system.cell

/-- A lock generator; `critical` is its section under the mutex. -/
structure LockGuarantees [DecidableEq Thread] (poisons : Bool)
    (critical : ID → Ty → Draw → LockedCell.Outcome ID Draw (Poll ID Ty))
    (system : LockSystem ID Ty Draw Thread) : Prop where
  pending_keeps : ∀ label next answer,
    LockedCell.step poisons critical system label = some next →
      next.returns = system.returns ++ [answer] →
        (∀ id, answer.result ≠ some (.ready id)) → next.cell = system.cell

section Interleavings

variable [DecidableEq Thread] {protocol : Protocol ID Ty Draw (Poll ID Ty)} {Good : ID → Prop}
  {Admissible : Ty → Prop} {rank : ID → Nat} {origin : ID}

theorem atomicGuarantees_of_run [DecidableEq ID] (polls : AnswersPolls protocol)
    (grows : protocol.Grows Good Admissible rank) (good : Good origin)
    {labels : List (OptimisticCell.Label Thread Ty Draw)}
    (admits : OptimisticCell.Admits Admissible labels)
    {system : AtomicSystem ID Ty Draw Thread}
    (ran : Transition.run (OptimisticCell.step protocol) (OptimisticCell.start origin) labels =
      some system) : AtomicGuarantees protocol system := by
  have inv := OptimisticCell.Inv.run grows.keeps good admits ran
  refine ⟨OptimisticCell.immediate_run grows good admits ran, ?_, ?_⟩
  · intro answer member lostAnswer
    have absent : answer.installed = none := by
      rw [← AtomicSystem.ready?_eq_installed polls inv member, lostAnswer,
        Poll.ready?_eq_none.mpr polls.lost]
    rcases (inv.returnsOk answer member).refused absent with
      ⟨state, now, _, _, waits⟩ | ⟨_, overtaken⟩
    · exact absurd lostAnswer (polls.waits waits).2
    · exact overtaken
  · intro label next answer stepped appended pending
    cases OptimisticCell.moves_of_step stepped with
    | succeed thread now drawn target since proposing =>
        simp only [OptimisticCell.System.install, List.append_cancel_left_eq,
          List.cons.injEq, and_true] at appended
        rw [← appended, polls.ready] at pending
        exact absurd pending (Poll.not_isPending_ready _)
    | _ => rfl

theorem lockGuarantees (polls : AnswersPolls protocol) {poisons : Bool}
    {critical : ID → Ty → Draw → LockedCell.Outcome ID Draw (Poll ID Ty)}
    (implements : LockedCell.Implements protocol critical)
    (system : LockSystem ID Ty Draw Thread) : LockGuarantees poisons critical system := by
  refine ⟨?_⟩
  intro label next answer stepped appended notReady
  rcases LockedCell.cell_of_step implements stepped appended with same | ⟨state, ready⟩
  · exact same
  · rw [polls.ready] at ready
    exact absurd ready (notReady state)

end Interleavings

end Ferroid.Generator
