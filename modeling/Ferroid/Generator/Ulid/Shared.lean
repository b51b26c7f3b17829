import Ferroid.Generator.Shared
import Ferroid.Generator.Ulid.BasicMono

/-!
Contract: `AtomicMonoUlidGenerator` and `LockMonoUlidGenerator` shared by any
number of threads.

Owns the attempt of the atomic generator up to its `compare_exchange`, with the
random draw of a new tick as a step of its own, the critical section of the lock
generator, and the theorem that under every interleaving the updates of either
are a run of `BasicMonoUlidGenerator` on the readings and random numbers those
updates used.

Does not own the interleaving semantics (`Library.OptimisticCell`,
`Library.LockedCell`).
-/

namespace Ferroid.Generator

open Ferroid.Id
open Ferroid.Library
open Ferroid.Library.Replay

variable {layout : UlidLayout}

/-! ## The two shared generators -/

/-- `AtomicMonoUlidGenerator::poll_id` between its load and its
`compare_exchange`; a new tick asks the random source. -/
def AtomicMonoUlidGenerator.plan (currentId : UlidId layout) (now : layout.Ty) :
    Plan (UlidId layout) layout.Ty (UlidPoll layout) :=
  let currentTs := currentId.timestamp
  match compare now.toNat currentTs.toNat with
  | .eq =>
      if currentId.hasRandomRoom then
        .commit currentId.incrementRandom
      else
        .wait (.pending 1#(layout.width))
  | .gt => .draw fun rand => currentId.rolloverToTimestamp now rand
  | .lt => .wait (coldClockBehindUlid now currentTs)

def AtomicMonoUlidGenerator.protocol (layout : UlidLayout) :
    Protocol (UlidId layout) layout.Ty layout.Ty (UlidPoll layout) where
  plan := AtomicMonoUlidGenerator.plan
  ready := .ready
  lost := .pending 0#(layout.width)

/-- `LockMonoUlidGenerator::try_poll_id` while it holds the lock; `rand` is what
the random source would return in this section. -/
def LockMonoUlidGenerator.critical (id : UlidId layout) (now rand : layout.Ty) :
    LockedCell.Outcome (UlidId layout) layout.Ty (UlidPoll layout) :=
  let currentTs := id.timestamp
  match compare now.toNat currentTs.toNat with
  | .eq =>
      if id.hasRandomRoom then
        let updated := id.incrementRandom
        ⟨updated, .ready updated, some updated, none⟩
      else
        ⟨id, .pending 1#(layout.width), none, none⟩
  | .gt =>
      let updated := id.rolloverToTimestamp now rand
      ⟨updated, .ready updated, some updated, some rand⟩
  | .lt => ⟨id, coldClockBehindUlid now currentTs, none, none⟩

/-- A schedule of threads sharing one atomic generator. -/
abbrev AtomicMonoUlidGenerator.System (layout : UlidLayout) (Thread : Type) :=
  AtomicSystem (UlidId layout) layout.Ty layout.Ty Thread

abbrev LockMonoUlidGenerator.System (layout : UlidLayout) (Thread : Type) :=
  LockSystem (UlidId layout) layout.Ty layout.Ty Thread

theorem LockMonoUlidGenerator.implements (layout : UlidLayout) :
    LockedCell.Implements (AtomicMonoUlidGenerator.protocol layout)
      LockMonoUlidGenerator.critical := by
  intro id now rand
  simp only [AtomicMonoUlidGenerator.protocol, AtomicMonoUlidGenerator.plan, critical]
  cases compare now.toNat id.timestamp.toNat with
  | eq => cases id.hasRandomRoom <;> rfl
  | gt => rfl
  | lt => rfl

/-! ## Agreement with the basic generator -/

namespace AtomicMonoUlidGenerator

/-- The basic poll at the state and reading of an attempt that updates: it
returns the same ID when its random source yields what the attempt drew. -/
theorem pollId_of_resolves {state next : UlidId layout} {now : layout.Ty}
    {drawn : Option layout.Ty} (resolves : (plan state now).Resolves drawn next)
    {rng : Nat → layout.Ty} {count : Nat} (agrees : ∀ value, drawn = some value →
      rng count = value) :
    BasicMonoUlidGenerator.pollId rng ⟨state, count⟩ now =
      (⟨next, count + drawn.toList.length⟩, .ready next) := by
  unfold plan at resolves
  unfold BasicMonoUlidGenerator.pollId
  cases order : compare now.toNat state.timestamp.toNat with
  | eq =>
      cases room : state.hasRandomRoom with
      | true =>
          simp only [order, room, if_true] at resolves ⊢
          cases resolves
          rfl
      | false =>
          simp only [order, room, Bool.false_eq_true, if_false] at resolves
          cases resolves
  | gt =>
      simp only [order] at resolves ⊢
      cases resolves with
      | draw _ value =>
          rw [agrees value rfl]
          rfl
  | lt =>
      simp only [order] at resolves
      cases resolves

/-- An attempt that plans no update asks to wait for a tick or for the clock. -/
theorem result_of_wait {state : UlidId layout} {now : layout.Ty}
    {result : UlidPoll layout} (waits : plan state now = .wait result) :
    result = .pending 1#(layout.width) ∨
      now < state.timestamp ∧ result = .pending (state.timestamp - now) := by
  unfold plan at waits
  cases order : compare now.toNat state.timestamp.toNat with
  | eq =>
      cases room : state.hasRandomRoom with
      | true =>
          simp only [order, room, if_true] at waits
          cases waits
      | false =>
          simp only [order, room, Bool.false_eq_true, if_false] at waits
          cases waits
          exact Or.inl rfl
  | gt =>
      simp only [order] at waits
      cases waits
  | lt =>
      simp only [order] at waits
      cases waits
      exact Or.inr ⟨Nat.compare_eq_lt.mp order, rfl⟩

theorem answersPolls (layout : UlidLayout) : AnswersPolls (protocol layout) where
  ready := fun _ => rfl
  lost := ⟨_, rfl⟩
  waits := by
    intro state now result waits
    rcases result_of_wait waits with rfl | ⟨behind, rfl⟩
    · exact ⟨⟨_, rfl⟩, Poll.pending_one_ne_pending_zero UlidLayout.width_pos⟩
    · exact ⟨⟨_, rfl⟩, Poll.pending_sub_ne_pending_zero behind⟩

/-- In-range updates keep the reserved bits clear and raise the packed integer,
whatever they draw. -/
theorem grows (layout : UlidLayout) :
    (protocol layout).Grows (fun state => state.isValid = true)
      (fun now => now ≤ layout.maxTimestamp) (fun state => state.id.toNat) := by
  have asPoll {state next : UlidId layout} {now : layout.Ty} {drawn : Option layout.Ty}
      (resolves : (plan state now).Resolves drawn next) :
      ∃ rng : Nat → layout.Ty, ∃ after : BasicMonoUlidGenerator layout, after.state = next ∧
        BasicMonoUlidGenerator.pollId rng ⟨state, 0⟩ now = (after, .ready next) := by
    refine ⟨fun _ => drawn.getD 0#(layout.width), _, ?_, pollId_of_resolves resolves ?_⟩
    · rfl
    · rintro value rfl
      rfl
  constructor
  · intro state now drawn next valid _ resolves
    obtain ⟨rng, after, rfl, polled⟩ := asPoll resolves
    have kept := (BasicMonoUlidGenerator.polls_pollId rng ⟨state, 0⟩ now).isValid valid
    rw [polled] at kept
    exact kept
  · intro state now drawn next valid fits resolves
    obtain ⟨rng, after, rfl, polled⟩ := asPoll resolves
    have polls := BasicMonoUlidGenerator.polls_pollId rng ⟨state, 0⟩ now
    rw [polled] at polls
    exact polls.lt fits valid rfl

/-- A random source that yields, from position `count` on, the numbers the updates
used. -/
def Feeds {Thread : Type} (rng : Nat → layout.Ty) (count : Nat)
    (updates : List (Update (UlidId layout) layout.Ty layout.Ty Thread)) : Prop :=
  ∀ index value, (updates.filterMap Update.drawn)[index]? = some value →
    rng (count + index) = value

/-- A replay of updates is a basic run over the readings and draws they used. -/
theorem pollAll_of_replays {Thread : Type} {origin final : UlidId layout}
    {updates : List (Update (UlidId layout) layout.Ty layout.Ty Thread)}
    (replays : (protocol layout).Replays origin updates final) {rng : Nat → layout.Ty}
    {count : Nat} (feeds : Feeds rng count updates) :
    (pollAll (BasicMonoUlidGenerator.pollId rng) ⟨origin, count⟩
          (updates.map Update.now)).map Polled.result =
        updates.map (fun update => .ready update.next) ∧
      afterAll (BasicMonoUlidGenerator.pollId rng) ⟨origin, count⟩ (updates.map Update.now) =
        ⟨final, count + (updates.filterMap Update.drawn).length⟩ := by
  induction updates generalizing origin count with
  | nil =>
      cases replays
      exact ⟨rfl, rfl⟩
  | cons update rest inductionHypothesis =>
      obtain ⟨resolves, continued⟩ := replays
      have split : (update :: rest).filterMap Update.drawn =
          update.drawn.toList ++ rest.filterMap Update.drawn := by
        rw [List.filterMap_cons]
        cases update.drawn <;> rfl
      have first : ∀ value, update.drawn = some value → rng count = value := by
        intro value drew
        apply feeds 0 value
        rw [split, drew]
        rfl
      have restFeeds : Feeds rng (count + update.drawn.toList.length) rest := by
        intro index value found
        rw [Nat.add_assoc]
        apply feeds
        rw [split, List.getElem?_append_right (by omega), Nat.add_sub_cancel_left]
        exact found
      obtain ⟨answers, ends⟩ := inductionHypothesis continued restFeeds
      have polled := pollId_of_resolves resolves first
      simp only [List.map_cons, pollAll, afterAll, polled]
      refine ⟨by rw [answers], ?_⟩
      rw [ends, split, List.length_append, Nat.add_assoc]

end AtomicMonoUlidGenerator

/-! ## Interleavings -/

section Interleavings

variable {Thread : Type} [DecidableEq Thread]

/-- The updates of a shared generator are a basic run from the state it was
created with, for every random source that yields the numbers the updates used. -/
def LinearizedUlid (origin cell : UlidId layout)
    (updates : List (Update (UlidId layout) layout.Ty layout.Ty Thread))
    (ready : List (Thread × UlidId layout)) : Prop :=
  ∀ rng : Nat → layout.Ty,
    (∀ index value, (updates.filterMap Update.drawn)[index]? = some value → rng index = value) →
    Linearized (BasicMonoUlidGenerator.pollId rng) ⟨origin, 0⟩
      ⟨cell, (updates.filterMap Update.drawn).length⟩ updates ready

private theorem linearizedUlid_of_replays {origin cell : UlidId layout}
    {updates : List (Update (UlidId layout) layout.Ty layout.Ty Thread)}
    (valid : origin.isValid = true)
    (admissible : ∀ update ∈ updates, update.now ≤ layout.maxTimestamp)
    (replays : (AtomicMonoUlidGenerator.protocol layout).Replays origin updates cell)
    {ready : List (Thread × UlidId layout)}
    (ready_eq : ready = updates.map fun update => (update.thread, update.next)) :
    LinearizedUlid origin cell updates ready := by
  intro rng feeds
  have fromZero : AtomicMonoUlidGenerator.Feeds rng 0 updates := by
    intro index value found
    rw [Nat.zero_add]
    exact feeds index value found
  obtain ⟨answers, final_eq⟩ := AtomicMonoUlidGenerator.pollAll_of_replays replays fromZero
  rw [Nat.zero_add] at final_eq
  exact linearized_of_replays UlidId.lt_def (AtomicMonoUlidGenerator.grows layout) valid
    admissible replays answers final_eq ready_eq

/-- Any number of threads sharing one atomic or one lock generator: every
interleaving, with stale readings and any random numbers, is a run of the basic
generator, and what a losing attempt drew leaves no trace. -/
theorem shared_mono_run_is_basic_run (layout : UlidLayout) (Thread : Type)
    [DecidableEq Thread] (t0 r0 : layout.Ty) :
    let origin := UlidId.fromComponents t0 r0
    (∀ (labels : List (OptimisticCell.Label Thread layout.Ty layout.Ty))
        (system : AtomicMonoUlidGenerator.System layout Thread),
      OptimisticCell.Admits (fun now => now ≤ layout.maxTimestamp) labels →
      Transition.run (OptimisticCell.step (AtomicMonoUlidGenerator.protocol layout))
          (OptimisticCell.start origin) labels = some system →
        LinearizedUlid origin system.cell system.updates system.readyAnswers ∧
          AtomicGuarantees (AtomicMonoUlidGenerator.protocol layout) system ∧
          ∀ thread value other between drew lost,
            (∀ label ∈ between, OptimisticCell.Label.thread label ≠ thread) →
            OptimisticCell.step (AtomicMonoUlidGenerator.protocol layout) system
              (.draw thread value) = some drew →
            Transition.run (OptimisticCell.step (AtomicMonoUlidGenerator.protocol layout)) drew
              between = some lost →
            (∀ now drawn next since,
              lost.phase thread ≠ .proposing now drawn lost.cell next since) →
            Transition.run (OptimisticCell.step (AtomicMonoUlidGenerator.protocol layout)) system
                (.draw thread other :: between ++ [.compareExchange thread]) =
              Transition.run (OptimisticCell.step (AtomicMonoUlidGenerator.protocol layout))
                system (.draw thread value :: between ++ [.compareExchange thread])) ∧
      ∀ (poisons : Bool) (labels : List (LockedCell.Label Thread layout.Ty layout.Ty))
        (system : LockMonoUlidGenerator.System layout Thread),
      LockedCell.Admits (fun now => now ≤ layout.maxTimestamp) labels →
      Transition.run (LockedCell.step poisons LockMonoUlidGenerator.critical)
          (LockedCell.start origin) labels = some system →
        LinearizedUlid origin system.cell system.updates system.readyAnswers ∧
          LockGuarantees poisons LockMonoUlidGenerator.critical system := by
  intro origin
  have valid : origin.isValid = true := UlidId.isValid_fromComponents t0 r0
  have polls := AtomicMonoUlidGenerator.answersPolls layout
  have grows := AtomicMonoUlidGenerator.grows layout
  have implements := LockMonoUlidGenerator.implements layout
  constructor
  · intro labels system admits ran
    have inv := OptimisticCell.Inv.run grows.keeps valid admits ran
    refine ⟨linearizedUlid_of_replays valid inv.admissible inv.replays
      (AtomicSystem.readyAnswers_eq polls inv),
      atomicGuarantees_of_run polls grows valid admits ran, ?_⟩
    intro thread value other between drew lost others stepped middle changed
    exact OptimisticCell.lost_draw_irrelevant others stepped middle changed
  · intro poisons labels system admits ran
    have inv := LockedCell.Inv.run grows.keeps valid implements admits ran
    exact ⟨linearizedUlid_of_replays valid inv.admissible inv.replays
      (LockSystem.readyAnswers_eq polls inv), lockGuarantees polls implements system⟩

/-- Two threads enter the same tick and draw the same number; one of them loses
and takes the next ID of the tick. -/
def raceLabelsUlid : List (OptimisticCell.Label Bool ULID.Ty ULID.Ty) :=
  [.readClock false 5#_, .readClock true 5#_, .load false, .load true, .draw false 7#_,
    .draw true 7#_, .compareExchange true, .compareExchange false,
    .readClock false 5#_, .load false, .compareExchange false]

theorem shared_mono_run_is_basic_run_race :
    let origin : UlidId ULID := UlidId.fromComponents 4#_ 3#_
    ∃ system : AtomicMonoUlidGenerator.System ULID Bool,
      Transition.run (OptimisticCell.step (AtomicMonoUlidGenerator.protocol _))
          (OptimisticCell.start origin) raceLabelsUlid = some system ∧
        system.returns.map (fun answer => (answer.thread, answer.result)) =
          [(true, .ready (UlidId.fromComponents 5#_ 7#_)), (false, .pending 0#_),
            (false, .ready (UlidId.fromComponents 5#_ 8#_))] ∧
        LinearizedUlid origin system.cell system.updates system.readyAnswers := by
  intro origin
  have answers : (Transition.run (OptimisticCell.step (AtomicMonoUlidGenerator.protocol _))
      (OptimisticCell.start origin) raceLabelsUlid).map
        (fun system => system.returns.map fun answer => (answer.thread, answer.result)) =
      some [(true, .ready (UlidId.fromComponents 5#_ 7#_)), (false, .pending 0#_),
        (false, .ready (UlidId.fromComponents 5#_ 8#_))] := by
    decide +kernel
  obtain ⟨system, ran, returned⟩ := Option.map_eq_some_iff.mp answers
  refine ⟨system, ran, returned, ?_⟩
  refine ((shared_mono_run_is_basic_run ULID Bool 4#_ 3#_).1 raceLabelsUlid system ?_ ran).1
  intro thread now member
  simp only [raceLabelsUlid, List.mem_cons, OptimisticCell.Label.readClock.injEq, reduceCtorEq,
    false_or, List.not_mem_nil, or_false] at member
  rcases member with ⟨_, rfl⟩ | ⟨_, rfl⟩ | ⟨_, rfl⟩ <;> decide +kernel

end Interleavings

end Ferroid.Generator
