import Ferroid.Library.Total
import Ferroid.Library.Transition
import Ferroid.Server.CallSteps

/-!
Contract: what `STREAMS_INFLIGHT` counts.

Owns the ledger of every run: the counter is the number of calls that have
counted themselves in and not out again, and when that is the number of spawned
feed tasks.

Does not own what shutdown concludes from the counter (`Server.Drain`).
-/

namespace Ferroid.Server

open Ferroid.Library

/-! ## Phases of a call -/

/-- A spawned feed task that has not done its final decrement. -/
def CallPhase.isFeedTask : CallPhase → Bool
  | .feeding _ _ | .returned => true
  | .absent | .arrived | .checked | .counted | .rejected _ | .panicked | .done => false

/-- What a call adds to the counter. -/
def CallPhase.charge : CallPhase → Nat
  | .counted | .panicked | .feeding _ _ | .returned => 1
  | .absent | .arrived | .checked | .rejected _ | .done => 0

def State.feedTasks (state : State) : Nat :=
  total (fun call : Call => if call.phase.isFeedTask then 1 else 0) state.arrivals state.calls

/-- Calls that have counted themselves in and not out again. -/
def State.charged (state : State) : Nat :=
  total (fun call : Call => call.phase.charge) state.arrivals state.calls

/-- The response channel of a stream can be opened. -/
def ServerConfig.Opens (config : ServerConfig) : Prop :=
  0 < config.streamBufferSize ∧ config.streamBufferSize ≤ maxPermits

/-- A handler only gets as far as the response channel for an admitted request, and
only panics there. -/
def CallPhase.Explained (config : ServerConfig) : CallPhase → Prop
  | .counted => 0 < config.maxAllowedIds
  | .panicked => ¬ config.Opens ∧ 0 < config.maxAllowedIds
  | .absent | .arrived | .checked | .rejected _ | .feeding _ _ | .returned | .done => True

/-- Phases that workers cannot tell apart: a feed task stays one. -/
inductive CallPhase.Alike : CallPhase → CallPhase → Prop where
  | same (phase : CallPhase) : Alike phase phase
  | feeding (remaining remaining' : Nat) (stage stage' : Stage) :
      Alike (.feeding remaining stage) (.feeding remaining' stage')

theorem CallPhase.Alike.trans {first second third : CallPhase} (left : first.Alike second)
    (right : second.Alike third) : first.Alike third := by
  cases left with
  | same => exact right
  | feeding =>
      cases right with
      | same => exact .feeding _ _ _ _
      | feeding => exact .feeding _ _ _ _

theorem CallPhase.Alike.charge_eq {first second : CallPhase} (alike : first.Alike second) :
    first.charge = second.charge := by
  cases alike <;> rfl

theorem CallPhase.Alike.eq_absent {phase : CallPhase} (alike : CallPhase.absent.Alike phase) :
    phase = .absent := by
  cases alike
  rfl

theorem CallPhase.Alike.explained {config : ServerConfig} {first second : CallPhase}
    (alike : first.Alike second) (explained : first.Explained config) :
    second.Explained config := by
  cases alike with
  | same => exact explained
  | feeding => trivial

theorem Call.alike_mapChannel (call : Call) (number : Nat)
    (change : ChunkChannel → ChunkChannel) :
    call.phase.Alike (call.mapChannel number change).phase := by
  rcases call.mapChannel_cases number change with
    ⟨_, same⟩ | ⟨remaining, channel, _, at_phase, mapped⟩ |
      ⟨remaining, channel, chunk, _, at_phase, mapped⟩
  · rw [same]
    exact .same _
  · rw [mapped, at_phase]
    exact .feeding _ _ _ _
  · rw [mapped, at_phase]
    exact .feeding _ _ _ _

/-! ## The ledger -/

structure Ledger (config : ServerConfig) (state : State) : Prop where
  inflight : state.inflight = BitVec.ofNat 64 state.charged
  absent : ∀ index, state.arrivals ≤ index → (state.calls index).phase = .absent
  explained : ∀ index, (state.calls index).phase.Explained config

theorem Ledger.lt_arrivals {config : ServerConfig} {state : State}
    (ledger : Ledger config state) {index : Nat} (present : (state.calls index).phase ≠ .absent) :
    index < state.arrivals := by
  by_contra beyond
  exact present (ledger.absent index (Nat.le_of_not_lt beyond))

section Steps

variable {config : ServerConfig} {state next : State}

theorem ledger_initial (config : ServerConfig) : Ledger config (initial config) where
  inflight := rfl
  absent _ _ := rfl
  explained _ := trivial

/-- A worker's step leaves every call's phase alike. -/
theorem Moves.work_alike {worker : Nat} {now : ServerLayout.Ty}
    (moves : Moves config state (.work worker now) next) (index : Nat) :
    (state.calls index).phase.Alike (next.calls index).phase := by
  have stable : ∀ call number change, (state.calls index).phase.Alike call.phase →
      (state.calls index).phase.Alike (Call.mapChannel call number change).phase :=
    fun call number change alike => alike.trans (call.alike_mapChannel number change)
  exact moves.work_calls stable (.same _)

/-- A call counts itself in when it is admitted and out when its feed task ends. -/
theorem CallMoves.balance {call after : Call} {inflight : BitVec 64} {nextWorker : Nat}
    (moves : CallMoves config state call after inflight nextWorker) :
    inflight + BitVec.ofNat 64 call.phase.charge =
      state.inflight + BitVec.ofNat 64 after.phase.charge := by
  cases moves with
  | refuse at_phase | check at_phase | zero at_phase | tooMany at_phase | spawn at_phase
  | burst at_phase | complete at_phase => rw [at_phase]; rfl
  | cut _ at_phase | cancelled _ _ at_phase | proceed _ _ at_phase | pick _ _ at_phase
  | down _ _ _ at_phase | take _ _ _ _ at_phase | drained _ _ at_phase | forward _ _ _ at_phase
  | fail _ _ at_phase | giveUp _ _ at_phase => rw [at_phase]; rfl
  | count at_phase =>
      rw [at_phase]
      exact BitVec.add_zero _
  | leave at_phase =>
      rw [at_phase]
      exact (BitVec.sub_add_cancel _ _).trans (BitVec.add_zero _).symm

theorem CallMoves.explained {call after : Call} {inflight : BitVec 64} {nextWorker : Nat}
    (moves : CallMoves config state call after inflight nextWorker)
    (explained : call.phase.Explained config) : after.phase.Explained config := by
  cases moves with
  | count _ some allowed => exact Nat.lt_of_lt_of_le (Nat.pos_of_ne_zero some) allowed
  | burst at_phase capacity =>
      rw [at_phase] at explained
      exact ⟨capacity, explained⟩
  | _ => trivial

/-- One call changes, and the counter with it. -/
theorem Ledger.updateCall (ledger : Ledger config state) {index : Nat} {call : Call}
    (calls : next.calls = Function.update state.calls index call)
    (arrivals : next.arrivals = state.arrivals) (present : (state.calls index).phase ≠ .absent)
    (balance : next.inflight + BitVec.ofNat 64 (state.calls index).phase.charge =
      state.inflight + BitVec.ofNat 64 call.phase.charge)
    (explained : call.phase.Explained config) : Ledger config next where
  inflight := by
    have inside : index < state.arrivals := ledger.lt_arrivals present
    have changed : next.charged + (state.calls index).phase.charge =
        state.charged + call.phase.charge := by
      rw [State.charged, calls, arrivals]
      exact total_update_of_lt inside
    -- Both sides gain the old charge of the call, so it can be cancelled.
    have same : next.inflight + BitVec.ofNat 64 (state.calls index).phase.charge =
        BitVec.ofNat 64 next.charged + BitVec.ofNat 64 (state.calls index).phase.charge := by
      rw [balance, ledger.inflight, ← BitVec.ofNat_add, ← BitVec.ofNat_add, changed]
    exact (BitVec.add_left_inj _).mp same
  absent := by
    intro other beyond
    rw [arrivals] at beyond
    have absent := ledger.absent other beyond
    rw [calls, Function.update_of_ne, absent]
    rintro rfl
    exact present absent
  explained := by
    rw [calls, Function.forall_update_iff state.calls fun _ call => call.phase.Explained config]
    exact ⟨explained, fun other _ => ledger.explained other⟩

/-- A new call is charged nothing. -/
theorem Ledger.arrive (ledger : Ledger config state) (count : Nat) :
    Ledger config
      { state.setCall state.arrivals { Call.absent with count := count, phase := .arrived } with
        arrivals := state.arrivals + 1 } where
  inflight := by
    have unchanged : State.charged
        { state.setCall state.arrivals { Call.absent with count := count, phase := .arrived } with
          arrivals := state.arrivals + 1 } = state.charged :=
      total_succ_update state.calls
    rw [unchanged]
    exact ledger.inflight
  absent := by
    intro index beyond
    have later : state.arrivals + 1 ≤ index := beyond
    show ((Function.update state.calls state.arrivals _) index).phase = _
    rw [Function.update_of_ne (by omega)]
    exact ledger.absent index (by omega)
  explained := by
    show ∀ index, ((Function.update state.calls state.arrivals _) index).phase.Explained config
    rw [Function.forall_update_iff state.calls fun _ call => call.phase.Explained config]
    exact ⟨trivial, fun other _ => ledger.explained other⟩

/-- Calls that stay alike leave the ledger as it is. -/
theorem Ledger.alike (ledger : Ledger config state)
    (inflight : next.inflight = state.inflight) (arrivals : next.arrivals = state.arrivals)
    (alike : ∀ index, (state.calls index).phase.Alike (next.calls index).phase) :
    Ledger config next where
  inflight := by
    have unchanged : next.charged = state.charged := by
      rw [State.charged, arrivals]
      exact total_congr fun index => (alike index).charge_eq.symm
    rw [inflight, unchanged]
    exact ledger.inflight
  absent := by
    intro index beyond
    rw [arrivals] at beyond
    have kept := alike index
    rw [ledger.absent index beyond] at kept
    exact kept.eq_absent
  explained index := (alike index).explained (ledger.explained index)

theorem alike_update {index : Nat} {call : Call}
    (alike : (state.calls index).phase.Alike call.phase) (other : Nat) :
    (state.calls other).phase.Alike (Function.update state.calls index call other).phase := by
  by_cases same : other = index
  · subst same
    rw [Function.update_self]
    exact alike
  · rw [Function.update_of_ne same]
    exact .same _

theorem Moves.work_inflight {worker : Nat} {now : ServerLayout.Ty}
    (moves : Moves config state (.work worker now) next) : next.inflight = state.inflight := by
  cases moves with
  | allocationPanic | stop | indexPanic =>
      rw [dropInbox_eq]
      rfl
  | _ => rfl

theorem CallMoves.phase_ne_absent {call after : Call} {inflight : BitVec 64} {nextWorker : Nat}
    (moves : CallMoves config state call after inflight nextWorker) : call.phase ≠ .absent := by
  intro absent
  cases moves <;> simp_all

theorem Ledger.step {label : Label} (ledger : Ledger config state)
    (stepped : Server.step config state label = some next) : Ledger config next := by
  have moves := moves_of_step stepped
  cases label with
  | work worker now =>
      exact ledger.alike moves.work_inflight moves.work_frame.2.2.2 moves.work_alike
  | arrive count =>
      cases moves with
      | arrive => exact ledger.arrive count
  | call index =>
      cases moves with
      | call _ after inflight nextWorker moves =>
          exact ledger.updateCall rfl rfl moves.phase_ne_absent moves.balance
            (moves.explained (ledger.explained index))
      | reserve _ remaining worker chunkSize at_phase
      | send _ remaining worker chunkSize at_phase =>
          refine ledger.alike rfl rfl (alike_update ?_)
          rw [at_phase]
          exact .feeding _ _ _ _
  | receive index =>
      cases moves with
      | receive => exact ledger.alike rfl rfl (alike_update (.same _))
  | disconnect index =>
      cases moves with
      | disconnect => exact ledger.alike rfl rfl (alike_update (.same _))
  | abort index =>
      cases moves with
      | abort => exact ledger.alike rfl rfl fun _ => .same _
  | manage timeout =>
      cases moves <;> exact ledger.alike rfl rfl fun _ => .same _

theorem ledger_of_run {labels : List Label}
    (ran : Transition.run (Server.step config) (initial config) labels = some state) :
    Ledger config state :=
  Transition.run_invariant_always (Ledger config)
    (fun _ _ _ ledger stepped => ledger.step stepped) (ledger_initial config) ran

end Steps

/-! ## Counting feed tasks -/

/-- What one step does to the counter. -/
inductive CounterStep (config : ServerConfig) (state next : State) : Label → Prop where
  | keeps {label : Label} (same : next.inflight = state.inflight) :
      CounterStep config state next label
  | countsIn (index : Nat) (admitted : (state.calls index).phase = .checked)
      (counted : (next.calls index).phase = .counted)
      (more : next.inflight = state.inflight + 1) : CounterStep config state next (.call index)
  | countsOut (index : Nat) (ended : (state.calls index).phase = .returned)
      (done : (next.calls index).phase = .done) (less : next.inflight = state.inflight - 1)
      (someTask : 0 < state.feedTasks)
      (noWrap : state.arrivals < 2 ^ 64 → state.inflight ≠ 0) :
      CounterStep config state next (.call index)

/-- The counter is right in a state and in every step from it. -/
structure State.InflightExact (config : ServerConfig) (state : State) : Prop where
  counts : (∀ index, (state.calls index).phase ≠ .counted) →
    state.inflight = BitVec.ofNat 64 state.feedTasks
  drained : (∀ index, (state.calls index).phase ≠ .counted ∧
    (state.calls index).phase.isFeedTask = false) → state.inflight = 0
  steps : ∀ label next, step config state label = some next →
    CounterStep config state next label
  rejects : ∀ index next error, step config state (.call index) = some next →
    (next.calls index).phase = .rejected error → next.inflight = state.inflight

section Exact

variable {config : ServerConfig} {state next : State}

theorem CallPhase.charge_le (phase : CallPhase) : phase.charge ≤ 1 := by
  cases phase <;> simp [charge]

theorem Ledger.charged_lt (few : state.arrivals < 2 ^ 64) : state.charged < 2 ^ 64 :=
  lt_of_le_of_lt (total_le_size fun call => call.phase.charge_le) few

theorem Ledger.inflight_ne_zero (ledger : Ledger config state) (small : state.charged < 2 ^ 64)
    {index : Nat} (charge : (state.calls index).phase.charge = 1) : state.inflight ≠ 0 := by
  have present : (state.calls index).phase ≠ .absent := by
    intro absent
    rw [absent] at charge
    cases charge
  have positive : (state.calls index).phase.charge ≤ state.charged :=
    le_total (fun call : Call => call.phase.charge) state.calls (ledger.lt_arrivals present)
  intro zero
  have asNat := congrArg BitVec.toNat (ledger.inflight.symm.trans zero)
  rw [BitVec.toNat_ofNat, Nat.mod_eq_of_lt small] at asNat
  have none : (0 : BitVec 64).toNat = 0 := rfl
  omega

theorem Ledger.counterStep {label : Label} (ledger : Ledger config state)
    (stepped : Server.step config state label = some next) :
    CounterStep config state next label := by
  have moves := moves_of_step stepped
  cases label with
  | work worker now => exact .keeps moves.work_inflight
  | arrive count => cases moves; exact .keeps rfl
  | receive index => cases moves; exact .keeps rfl
  | disconnect index => cases moves; exact .keeps rfl
  | abort index => cases moves; exact .keeps rfl
  | manage timeout => cases moves <;> exact .keeps rfl
  | call index =>
      cases moves with
      | reserve | send => exact .keeps rfl
      | call _ after inflight nextWorker moves =>
          have updated : (state.setCall index after).calls index = after :=
            Function.update_self ..
          cases moves with
          | count at_phase => exact .countsIn index at_phase (congrArg Call.phase updated) rfl
          | leave at_phase =>
              have present : (state.calls index).phase ≠ .absent := by
                rw [at_phase]
                exact CallPhase.noConfusion
              have charge : (state.calls index).phase.charge = 1 := by
                rw [at_phase]
                rfl
              have someTask : 0 < state.feedTasks := by
                have weighs := le_total
                  (fun call : Call => if call.phase.isFeedTask then 1 else 0) state.calls
                  (ledger.lt_arrivals present)
                simp only [at_phase] at weighs
                exact weighs
              exact .countsOut index at_phase (congrArg Call.phase updated) rfl someTask
                fun few => ledger.inflight_ne_zero (Ledger.charged_lt few) charge
          | _ => exact .keeps rfl

/-- Without panicking handlers, only feed tasks and admitted calls are charged. -/
theorem feedTasks_eq_charged (calm : ∀ index, (state.calls index).phase ≠ .counted ∧
    (state.calls index).phase ≠ .panicked) : state.feedTasks = state.charged := by
  apply total_congr
  intro index
  obtain ⟨notCounted, notPanicked⟩ := calm index
  cases at_phase : (state.calls index).phase with
  | counted => exact absurd at_phase notCounted
  | panicked => exact absurd at_phase notPanicked
  | _ => rfl

/-- Where response channels open, or nothing is admitted, no handler panics. -/
theorem Ledger.noPanic (ledger : Ledger config state)
    (calm : config.Opens ∨ config.maxAllowedIds = 0) (index : Nat) :
    (state.calls index).phase ≠ .panicked := by
  intro at_phase
  have explained := ledger.explained index
  rw [at_phase] at explained
  rcases calm with opens | closed
  · exact explained.1 opens
  · exact absurd closed explained.2.ne'

theorem Ledger.inflightExact (ledger : Ledger config state)
    (calm : config.Opens ∨ config.maxAllowedIds = 0) : state.InflightExact config := by
  have counts : (∀ index, (state.calls index).phase ≠ .counted) →
      state.inflight = BitVec.ofNat 64 state.feedTasks := by
    intro notCounted
    rw [feedTasks_eq_charged fun index => ⟨notCounted index, ledger.noPanic calm index⟩]
    exact ledger.inflight
  refine ⟨counts, ?_, fun label next stepped => ledger.counterStep stepped, ?_⟩
  · intro idle
    have noTasks : state.feedTasks = 0 := by
      apply total_eq_zero
      intro index
      simp only [(idle index).2]
      rfl
    rw [counts fun index => (idle index).1, noTasks]
    rfl
  · intro index next error stepped rejected
    cases ledger.counterStep stepped with
    | keeps same => exact same
    | countsIn _ _ counted =>
        rw [counted] at rejected
        cases rejected
    | countsOut _ _ done =>
        rw [done] at rejected
        cases rejected

/-- An admitted request whose response channel cannot be opened. -/
def leakRun : List Label := .arrive 1 :: List.replicate 3 (.call 0)

theorem leakRun_leaks (admits : 0 < config.maxAllowedIds) (closed : ¬ config.Opens) :
    ∃ state, Transition.run (step config) (initial config) leakRun = some state ∧
      state.inflight = 1 ∧ state.feedTasks = 0 ∧
        ∀ index, (state.calls index).phase ≠ .counted := by
  have allowed : ¬ config.maxAllowedIds < 1 := by
    omega
  have capacity : ¬ (0 < config.streamBufferSize ∧ config.streamBufferSize ≤ maxPermits) := closed
  refine ⟨{ initial config with
    calls := Function.update (fun _ => Call.absent) 0 ⟨1, .panicked, 0, true, [], []⟩
    arrivals := 1
    inflight := 1 }, ?_, rfl, rfl, ?_⟩
  · simp [leakRun, Transition.run, step, taskStep, callStep, State.setCall, initial, Call.absent,
      allowed, capacity, usizeRange]
  · show ∀ index, ((Function.update (fun _ => Call.absent) 0 _) index).phase ≠ _
    rw [Function.forall_update_iff (fun _ => Call.absent) fun _ call => call.phase ≠ .counted]
    exact ⟨CallPhase.noConfusion, fun _ _ => CallPhase.noConfusion⟩

end Exact

/-- In every run of a configuration the counter is exact in every state, exactly
when response channels can be opened or no request is ever admitted. -/
theorem inflight_exact_iff (config : ServerConfig) :
    (∀ labels state, Transition.run (step config) (initial config) labels = some state →
      state.InflightExact config) ↔
      (0 < config.streamBufferSize ∧ config.streamBufferSize ≤ maxPermits) ∨
        config.maxAllowedIds = 0 := by
  constructor
  · intro exact_
    by_contra leaky
    obtain ⟨closed, admits⟩ := not_or.mp leaky
    obtain ⟨state, ran, one, none, notCounted⟩ :=
      leakRun_leaks (Nat.pos_of_ne_zero admits) closed
    have counts := (exact_ leakRun state ran).counts notCounted
    rw [one, none] at counts
    exact absurd counts (by decide)
  · intro calm labels state ran
    exact (ledger_of_run ran).inflightExact calm

/-- `STREAM_BUFFER_SIZE = 0` with every other option at a usual value. -/
def unbuffered : ServerConfig := ⟨1000, 0, 1, 1, 0, 8, 3⟩

/-- It is accepted, and its first admitted request leaves the counter at one for
ever: the handler panics between its increment and the spawn. -/
theorem inflight_leaks_unbuffered :
    unbuffered.Accepted ∧ ∃ state,
      Transition.run (step unbuffered) (initial unbuffered) leakRun = some state ∧
        (∀ index, (state.calls index).phase ≠ .counted) ∧
        state.inflight ≠ BitVec.ofNat 64 state.feedTasks := by
  constructor
  · exact ⟨⟨1000, 0, 1, 1, 0, 3, by decide, by decide, by decide, by decide, by decide,
      by decide⟩, by decide +kernel⟩
  · have closed : ¬ unbuffered.Opens := fun opens => absurd opens.1 (by decide)
    have admits : 0 < unbuffered.maxAllowedIds := by decide
    obtain ⟨state, ran, one, none, notCounted⟩ := leakRun_leaks admits closed
    refine ⟨state, ran, notCounted, ?_⟩
    rw [one, none]
    decide

end Ferroid.Server
