import Ferroid.Generator.Shared
import Ferroid.Generator.Snowflake.Basic

/-!
Contract: `AtomicSnowflakeGenerator` and `LockSnowflakeGenerator` shared by any
number of threads.

Owns the attempt of the atomic generator up to its `compare_exchange`, the
critical section of the lock generator, and the theorem that under every
interleaving the updates of either are a run of `BasicSnowflakeGenerator`.

Does not own the interleaving semantics (`Library.OptimisticCell`,
`Library.LockedCell`).
-/

namespace Ferroid.Generator

open Ferroid.Id
open Ferroid.Library
open Ferroid.Library.Replay

variable {layout : SnowflakeLayout}

/-! ## The two shared generators -/

/-- `AtomicSnowflakeGenerator::poll_id` between its load and its
`compare_exchange`. The cell holds the raw integer, of which an ID is the
transparent wrapper. -/
def AtomicSnowflakeGenerator.plan (currentId : SnowflakeId layout) (now : layout.Ty) :
    Plan (SnowflakeId layout) Unit (SnowflakePoll layout) :=
  let currentTs := currentId.timestamp
  match compare now.toNat currentTs.toNat with
  | .eq =>
      if currentId.hasSequenceRoom then
        .commit currentId.incrementSequence
      else
        .wait (.pending 1#(layout.width))
  | .gt => .commit (currentId.rolloverToTimestamp now)
  | .lt => .wait (coldClockBehind now currentTs)

/-- A won race answers Ready, a lost one Pending with nothing to wait for. -/
def AtomicSnowflakeGenerator.protocol (layout : SnowflakeLayout) :
    Protocol (SnowflakeId layout) layout.Ty Unit (SnowflakePoll layout) where
  plan := AtomicSnowflakeGenerator.plan
  ready := .ready
  lost := .pending 0#(layout.width)

/-- `LockSnowflakeGenerator::try_poll_id` while it holds the lock. -/
def LockSnowflakeGenerator.critical (id : SnowflakeId layout) (now : layout.Ty) (_ : Unit) :
    LockedCell.Outcome (SnowflakeId layout) Unit (SnowflakePoll layout) :=
  let currentTs := id.timestamp
  match compare now.toNat currentTs.toNat with
  | .eq =>
      if id.hasSequenceRoom then
        let updated := id.incrementSequence
        ⟨updated, .ready updated, some updated, none⟩
      else
        ⟨id, .pending 1#(layout.width), none, none⟩
  | .gt =>
      let updated := id.rolloverToTimestamp now
      ⟨updated, .ready updated, some updated, none⟩
  | .lt => ⟨id, coldClockBehind now currentTs, none, none⟩

/-- A schedule of threads sharing one atomic generator; it draws nothing. -/
abbrev AtomicSnowflakeGenerator.System (layout : SnowflakeLayout) (Thread : Type) :=
  AtomicSystem (SnowflakeId layout) layout.Ty Unit Thread

abbrev LockSnowflakeGenerator.System (layout : SnowflakeLayout) (Thread : Type) :=
  LockSystem (SnowflakeId layout) layout.Ty Unit Thread

theorem LockSnowflakeGenerator.implements (layout : SnowflakeLayout) :
    LockedCell.Implements (AtomicSnowflakeGenerator.protocol layout)
      LockSnowflakeGenerator.critical := by
  intro id now _
  simp only [AtomicSnowflakeGenerator.protocol, AtomicSnowflakeGenerator.plan, critical]
  cases compare now.toNat id.timestamp.toNat with
  | eq => cases id.hasSequenceRoom <;> rfl
  | gt => rfl
  | lt => rfl

/-! ## Agreement with the basic generator -/

namespace AtomicSnowflakeGenerator

/-- An attempt that plans an update plans the ID a basic poll would return. -/
theorem pollId_of_resolves {state next : SnowflakeId layout} {now : layout.Ty}
    {drawn : Option Unit} (resolves : (plan state now).Resolves drawn next) :
    BasicSnowflakeGenerator.pollId ⟨state⟩ now = (⟨next⟩, .ready next) := by
  unfold plan at resolves
  unfold BasicSnowflakeGenerator.pollId
  cases order : compare now.toNat state.timestamp.toNat with
  | eq =>
      cases room : state.hasSequenceRoom with
      | true =>
          simp only [order, room, if_true] at resolves ⊢
          cases resolves
          rfl
      | false =>
          simp only [order, room, Bool.false_eq_true, if_false] at resolves
          cases resolves
  | gt =>
      simp only [order] at resolves ⊢
      cases resolves
      rfl
  | lt =>
      simp only [order] at resolves
      cases resolves

/-- An attempt that plans no update answers what a basic poll answers. -/
theorem pollId_of_wait {state : SnowflakeId layout} {now : layout.Ty}
    {result : SnowflakePoll layout} (waits : plan state now = .wait result) :
    BasicSnowflakeGenerator.pollId ⟨state⟩ now = (⟨state⟩, result) ∧
      (result = .pending 1#(layout.width) ∨
        now < state.timestamp ∧ result = .pending (state.timestamp - now)) := by
  unfold plan at waits
  unfold BasicSnowflakeGenerator.pollId
  cases order : compare now.toNat state.timestamp.toNat with
  | eq =>
      cases room : state.hasSequenceRoom with
      | true =>
          simp only [order, room, if_true] at waits
          cases waits
      | false =>
          simp only [order, room, Bool.false_eq_true, if_false] at waits ⊢
          cases waits
          exact ⟨rfl, Or.inl rfl⟩
  | gt =>
      simp only [order] at waits
      cases waits
  | lt =>
      simp only [order] at waits ⊢
      cases waits
      exact ⟨rfl, Or.inr ⟨Nat.compare_eq_lt.mp order, rfl⟩⟩

/-- No refusal of a plan asks for a wait of zero: that answer is reserved for a
lost race. -/
theorem answersPolls (layout : SnowflakeLayout) : AnswersPolls (protocol layout) where
  ready := fun _ => rfl
  lost := ⟨_, rfl⟩
  waits := by
    intro state now result waits
    rcases (pollId_of_wait waits).2 with rfl | ⟨behind, rfl⟩
    · exact ⟨⟨_, rfl⟩, Poll.pending_one_ne_pending_zero SnowflakeLayout.width_pos⟩
    · exact ⟨⟨_, rfl⟩, Poll.pending_sub_ne_pending_zero behind⟩

/-- Updates keep the state valid and its machine ID, for every clock reading. -/
theorem keeps (machineId : layout.Ty) (Admissible : layout.Ty → Prop) :
    (protocol layout).Keeps
      (fun state => BasicSnowflakeGenerator.Serves machineId ⟨state⟩) Admissible := by
  intro state now drawn next good _ resolves
  have after := BasicSnowflakeGenerator.Serves.pollId good now
  rw [pollId_of_resolves resolves] at after
  exact after

/-- In-range updates raise the packed integer. -/
theorem grows (machineId : layout.Ty) :
    (protocol layout).Grows (fun state => BasicSnowflakeGenerator.Serves machineId ⟨state⟩)
      (fun now => now ≤ layout.maxTimestamp) (fun state => state.id.toNat) where
  keeps := keeps machineId _
  rank_lt := by
    intro state now drawn next good fits resolves
    have polls := BasicSnowflakeGenerator.polls_pollId ⟨state⟩ now
    rw [pollId_of_resolves resolves] at polls
    exact polls.lt fits good.1 rfl

/-- A replay of updates is a basic run over the readings they used. -/
theorem pollAll_of_replays {Thread : Type} {origin final : SnowflakeId layout}
    {updates : List (Update (SnowflakeId layout) layout.Ty Unit Thread)}
    (replays : (protocol layout).Replays origin updates final) :
    (pollAll BasicSnowflakeGenerator.pollId ⟨origin⟩ (updates.map Update.now)).map
          Polled.result =
        updates.map (fun update => .ready update.next) ∧
      afterAll BasicSnowflakeGenerator.pollId ⟨origin⟩ (updates.map Update.now) = ⟨final⟩ := by
  induction updates generalizing origin with
  | nil => exact ⟨rfl, congrArg _ replays⟩
  | cons update rest inductionHypothesis =>
      obtain ⟨resolves, continued⟩ := replays
      obtain ⟨answers, ends⟩ := inductionHypothesis continued
      have polled := pollId_of_resolves resolves
      simp only [List.map_cons, pollAll, afterAll, polled]
      exact ⟨by rw [answers], ends⟩

end AtomicSnowflakeGenerator

/-! ## Interleavings -/

section Interleavings

variable {Thread : Type} [DecidableEq Thread]

/-- The updates of a shared generator are a basic run from the state it was
created with. -/
abbrev LinearizedSnowflake (origin cell : SnowflakeId layout)
    (updates : List (Update (SnowflakeId layout) layout.Ty Unit Thread))
    (ready : List (Thread × SnowflakeId layout)) : Prop :=
  Linearized BasicSnowflakeGenerator.pollId ⟨origin⟩ ⟨cell⟩ updates ready

private theorem linearizedSnowflake_of_replays {machineId : layout.Ty}
    {origin cell : SnowflakeId layout}
    {updates : List (Update (SnowflakeId layout) layout.Ty Unit Thread)}
    (good : BasicSnowflakeGenerator.Serves machineId ⟨origin⟩)
    (admissible : ∀ update ∈ updates, update.now ≤ layout.maxTimestamp)
    (replays : (AtomicSnowflakeGenerator.protocol layout).Replays origin updates cell)
    {ready : List (Thread × SnowflakeId layout)}
    (ready_eq : ready = updates.map fun update => (update.thread, update.next)) :
    LinearizedSnowflake origin cell updates ready := by
  obtain ⟨answers, final_eq⟩ := AtomicSnowflakeGenerator.pollAll_of_replays replays
  exact linearized_of_replays SnowflakeId.lt_def (AtomicSnowflakeGenerator.grows machineId) good
    admissible replays answers final_eq ready_eq

/-- Any number of threads sharing one atomic or one lock generator: every
interleaving, with stale readings, is a run of the basic generator. -/
theorem shared_run_is_basic_run (layout : SnowflakeLayout) (Thread : Type)
    [DecidableEq Thread] (t0 m s0 : layout.Ty) (machineFits : m ≤ layout.maxMachineId) :
    let origin := SnowflakeId.fromComponents t0 m s0
    (∀ (labels : List (OptimisticCell.Label Thread layout.Ty Unit))
        (system : AtomicSnowflakeGenerator.System layout Thread),
      OptimisticCell.Admits (fun now => now ≤ layout.maxTimestamp) labels →
      Transition.run (OptimisticCell.step (AtomicSnowflakeGenerator.protocol layout))
          (OptimisticCell.start origin) labels = some system →
        LinearizedSnowflake origin system.cell system.updates system.readyAnswers ∧
          AtomicGuarantees (AtomicSnowflakeGenerator.protocol layout) system) ∧
      ∀ (poisons : Bool) (labels : List (LockedCell.Label Thread layout.Ty Unit))
        (system : LockSnowflakeGenerator.System layout Thread),
      LockedCell.Admits (fun now => now ≤ layout.maxTimestamp) labels →
      Transition.run (LockedCell.step poisons LockSnowflakeGenerator.critical)
          (LockedCell.start origin) labels = some system →
        LinearizedSnowflake origin system.cell system.updates system.readyAnswers ∧
          LockGuarantees poisons LockSnowflakeGenerator.critical system := by
  intro origin
  have good := BasicSnowflakeGenerator.serves_fromComponents t0 m s0 machineFits
  have polls := AtomicSnowflakeGenerator.answersPolls layout
  have grows := AtomicSnowflakeGenerator.grows m
  have implements := LockSnowflakeGenerator.implements layout
  constructor
  · intro labels system admits ran
    have inv := OptimisticCell.Inv.run grows.keeps good admits ran
    exact ⟨linearizedSnowflake_of_replays good inv.admissible inv.replays
      (AtomicSystem.readyAnswers_eq polls inv), atomicGuarantees_of_run polls grows good admits ran⟩
  · intro poisons labels system admits ran
    have inv := LockedCell.Inv.run grows.keeps good implements admits ran
    exact ⟨linearizedSnowflake_of_replays good inv.admissible inv.replays
      (LockSystem.readyAnswers_eq polls inv), lockGuarantees polls implements system⟩

/-- Two threads read the same clock and load the same state; the second one to
reach its `compare_exchange` loses, retries and gets the next ID. -/
def raceLabels : List (OptimisticCell.Label Bool SnowflakeTwitterId.Ty Unit) :=
  [.readClock false 5#_, .readClock true 5#_, .load false, .load true,
    .compareExchange true, .compareExchange false,
    .readClock false 5#_, .load false, .compareExchange false]

theorem shared_run_is_basic_run_race :
    let origin : SnowflakeId SnowflakeTwitterId := SnowflakeId.fromComponents 4#_ 3#_ 0#_
    ∃ system : AtomicSnowflakeGenerator.System SnowflakeTwitterId Bool,
      Transition.run (OptimisticCell.step (AtomicSnowflakeGenerator.protocol _))
          (OptimisticCell.start origin) raceLabels = some system ∧
        system.returns.map (fun answer => (answer.thread, answer.result)) =
          [(true, .ready (SnowflakeId.fromComponents 5#_ 3#_ 0#_)), (false, .pending 0#_),
            (false, .ready (SnowflakeId.fromComponents 5#_ 3#_ 1#_))] ∧
        LinearizedSnowflake origin system.cell system.updates system.readyAnswers := by
  intro origin
  have answers : (Transition.run (OptimisticCell.step (AtomicSnowflakeGenerator.protocol _))
      (OptimisticCell.start origin) raceLabels).map
        (fun system => system.returns.map fun answer => (answer.thread, answer.result)) =
      some [(true, .ready (SnowflakeId.fromComponents 5#_ 3#_ 0#_)), (false, .pending 0#_),
        (false, .ready (SnowflakeId.fromComponents 5#_ 3#_ 1#_))] := by
    decide +kernel
  obtain ⟨system, ran, returned⟩ := Option.map_eq_some_iff.mp answers
  refine ⟨system, ran, returned, ?_⟩
  refine (shared_run_is_basic_run SnowflakeTwitterId Bool 4#_ 3#_ 0#_
    (by decide +kernel)).1 raceLabels system ?_ ran |>.1
  intro thread now member
  simp only [raceLabels, List.mem_cons, OptimisticCell.Label.readClock.injEq, reduceCtorEq,
    false_or, List.not_mem_nil, or_false] at member
  rcases member with ⟨_, rfl⟩ | ⟨_, rfl⟩ | ⟨_, rfl⟩ <;> decide +kernel

end Interleavings

end Ferroid.Generator
