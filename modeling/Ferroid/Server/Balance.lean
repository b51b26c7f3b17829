import Ferroid.Library.RoundRobin
import Ferroid.Library.Transition
import Ferroid.Server.CallSteps

/-!
Contract: how requests are spread over the workers.

Owns the choices of `next_worker_index` in a run, the worker that each of them names,
and the bound on how unevenly any run can load two workers, also after the counter has
wrapped around.

Does not own whether the chosen worker takes the request.
-/

namespace Ferroid.Server

open Ferroid.Library

/-! ## Choices -/

/-- The step is a call of `next_worker_index`. -/
def State.picks (state : State) : Label → Bool
  | .call index =>
      match (state.calls index).phase with
      | .feeding _ (.picking _) => true
      | _ => false
  | _ => false

/-- The worker that a feed task has chosen, from its choice to its permit. -/
def CallPhase.chosen : CallPhase → Option Nat
  | .feeding _ (.sending worker _) => some worker
  | _ => none

/-- The step picks this worker: the feed task goes on to send to it. -/
def State.picksWorker (config : ServerConfig) (worker : Nat) (state : State) : Label → Bool
  | .call index => state.picks (.call index) &&
      (step config state (.call index)).any fun next =>
        (next.calls index).phase.chosen == some worker
  | _ => false

/-- Choices in a run. -/
def picksFrom (config : ServerConfig) (state : State) (labels : List Label) : Nat :=
  Transition.totalCost (step config) (fun state label => (state.picks label).toNat) state labels

/-- Choices of one worker in a run. -/
def picksOfFrom (config : ServerConfig) (worker : Nat) (state : State) (labels : List Label) :
    Nat :=
  Transition.totalCost (step config)
    (fun state label => (state.picksWorker config worker label).toNat) state labels

section Picks

variable {config : ServerConfig} {state next : State}

theorem CallMoves.nextWorker {index : Nat} {after : Call} {inflight : BitVec 64}
    {nextWorker : Nat}
    (moves : CallMoves config state (state.calls index) after inflight nextWorker) :
    nextWorker = if state.picks (.call index) then (state.nextWorker + 1) % usizeRange
      else state.nextWorker := by
  cases moves with
  | pick remaining chunkSize at_phase => simp [State.picks, at_phase]
  | giveUp remaining stage at_phase sending gone =>
      rcases sending with ⟨channel, chunk, rfl⟩ | ⟨error, rfl⟩ <;> simp [State.picks, at_phase]
  | refuse at_phase | check at_phase | zero at_phase | tooMany at_phase | count at_phase
  | spawn at_phase | burst at_phase | complete at_phase | cut _ at_phase | cancelled _ _ at_phase
  | proceed _ _ at_phase | down _ _ _ at_phase | take _ _ _ _ at_phase | drained _ _ at_phase
  | forward _ _ _ at_phase | fail _ _ at_phase | leave at_phase =>
      simp [State.picks, at_phase]

/-- The counter moves by one for each choice, and wraps. -/
theorem nextWorker_of_step {label : Label} (stepped : step config state label = some next) :
    next.nextWorker = if state.picks label then (state.nextWorker + 1) % usizeRange
      else state.nextWorker := by
  cases moves_of_step stepped with
  | call index after inflight nextWorker moves => exact moves.nextWorker
  | reserve index remaining worker chunkSize at_phase
  | send index remaining worker chunkSize at_phase =>
      simp only [State.picks, at_phase, Bool.false_eq_true, if_false]
      rfl
  | allocationPanic | stop | indexPanic =>
      rw [dropInbox_eq]
      rfl
  | _ => rfl

/-- The feed task sends to the worker that the counter names. -/
theorem picksWorker_of_step {label : Label} (worker : Nat)
    (stepped : step config state label = some next) :
    state.picksWorker config worker label =
      (state.picks label && state.nextWorker % config.numWorkers == worker) := by
  cases label with
  | call index =>
      by_cases picking : ∃ remaining chunkSize,
          (state.calls index).phase = .feeding remaining (.picking chunkSize)
      · obtain ⟨remaining, chunkSize, at_phase⟩ := picking
        obtain ⟨_, moved⟩ := step_eq_some.mp stepped
        simp only [taskStep, callStep, at_phase, feedStep, Option.some.injEq] at moved
        simp [State.picksWorker, State.picks, at_phase, stepped, ← moved, State.setCall,
          CallPhase.chosen, Option.any, Bool.beq_eq_decide_eq]
      · have idle : state.picks (.call index) = false := by
          simp only [State.picks]
          split
          · next remaining chunkSize at_phase => exact absurd ⟨_, _, at_phase⟩ picking
          · rfl
        simp [State.picksWorker, idle]
  | _ => rfl

/-- A worker gets the turns of its residue, counted from the first one of the run. -/
theorem share_add_picks (worker : Nat) {turns : Nat} {labels : List Label}
    (counter : state.nextWorker = turns % usizeRange)
    (ran : Transition.run (step config) state labels = some next) :
    RoundRobin.share usizeRange config.numWorkers worker turns +
        picksOfFrom config worker state labels =
      RoundRobin.share usizeRange config.numWorkers worker
        (turns + picksFrom config state labels) := by
  induction labels generalizing state turns with
  | nil => rfl
  | cons label rest inductionHypothesis =>
      obtain ⟨middle, stepped, continued⟩ := Transition.run_cons.mp ran
      have moved := nextWorker_of_step stepped
      simp only [picksOfFrom, picksFrom, Transition.totalCost, stepped,
        picksWorker_of_step worker stepped]
      by_cases picks : state.picks label = true
      · rw [if_pos picks, counter, Nat.mod_add_mod] at moved
        have later := inductionHypothesis moved continued
        simp only [picksOfFrom, picksFrom] at later
        have turn : RoundRobin.share usizeRange config.numWorkers worker (turns + 1) =
            RoundRobin.share usizeRange config.numWorkers worker turns +
              (state.nextWorker % config.numWorkers == worker).toNat := by
          rw [counter, RoundRobin.share, RoundRobin.share, Nat.count_succ]
          by_cases isWorker : turns % usizeRange % config.numWorkers = worker <;> simp [isWorker]
        simp only [picks, Bool.true_and, Bool.toNat_true]
        rw [← Nat.add_assoc turns, ← later, turn, Nat.add_assoc]
      · rw [if_neg picks, counter] at moved
        have later := inductionHypothesis moved continued
        simp only [picksOfFrom, picksFrom] at later
        rw [Bool.not_eq_true] at picks
        simp only [picks, Bool.false_and, Bool.toNat_false, Nat.zero_add]
        exact later

end Picks

/-- In every run, a worker is chosen exactly as often as the counter has named it, and two
workers are chosen equally often up to one, and one more for each `2 ^ 64` choices. -/
theorem dispatch_balanced (config : ServerConfig) (labels : List Label) (state : State)
    (ran : Transition.run (step config) (initial config) labels = some state) :
    (∀ worker, picksOfFrom config worker (initial config) labels =
      RoundRobin.share usizeRange config.numWorkers worker
        (picksFrom config (initial config) labels)) ∧
      ∀ left right, left < config.numWorkers → right < config.numWorkers →
        picksOfFrom config left (initial config) labels ≤
          picksOfFrom config right (initial config) labels +
            (picksFrom config (initial config) labels / 2 ^ 64 + 1) := by
  have shares : ∀ worker, picksOfFrom config worker (initial config) labels =
      RoundRobin.share usizeRange config.numWorkers worker
        (picksFrom config (initial config) labels) := by
    intro worker
    have start : (initial config).nextWorker = 0 % usizeRange := rfl
    simpa [RoundRobin.share] using share_add_picks worker start ran
  refine ⟨shares, fun left right leftKnown rightKnown => ?_⟩
  rw [shares left, shares right]
  exact RoundRobin.share_le_share (by decide) leftKnown rightKnown

/-- Three requests that have chosen their workers. -/
def threePicksRun : List Label :=
  (List.range 3).flatMap fun index => .arrive 1 :: List.replicate 6 (.call index)

theorem dispatch_balanced_three_picks :
    picksOfFrom nodeOfTwo 0 (initial nodeOfTwo) threePicksRun = 2 ∧
      picksOfFrom nodeOfTwo 1 (initial nodeOfTwo) threePicksRun = 1 ∧
      picksOfFrom nodeOfTwo 0 (initial nodeOfTwo) threePicksRun ≤
        picksOfFrom nodeOfTwo 1 (initial nodeOfTwo) threePicksRun + 1 := by
  have observed : ((Transition.run (step nodeOfTwo) (initial nodeOfTwo) threePicksRun).map
      State.arrivals, picksOfFrom nodeOfTwo 0 (initial nodeOfTwo) threePicksRun,
      picksOfFrom nodeOfTwo 1 (initial nodeOfTwo) threePicksRun,
      picksFrom nodeOfTwo (initial nodeOfTwo) threePicksRun) = (some 3, 2, 1, 3) := by
    decide +kernel
  simp only [Prod.mk.injEq] at observed
  obtain ⟨isRun, first, second, all⟩ := observed
  obtain ⟨state, ran, _⟩ := Option.map_eq_some_iff.mp isRun
  have balanced := (dispatch_balanced nodeOfTwo threePicksRun state ran).2 0 1 (by decide)
    (by decide)
  rw [all] at balanced
  exact ⟨first, second, balanced⟩

end Ferroid.Server
