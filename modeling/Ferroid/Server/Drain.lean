import Ferroid.Server.Admission
import Ferroid.Server.Inflight

/-!
Contract: what the drain phase of `WorkerPool::shutdown` concludes.

Owns when a counter read of zero means that no stream is left to be cut: exactly
when no call stands between its check of the shutdown flag and its increment.

Does not own the counter itself (`Server.Inflight`) or what a client sees of a
stream that is cut (`Server.Shutdown`).
-/

namespace Ferroid.Server

open Ferroid.Library
open Ferroid.Library.Transition

/-! ## A clean cancellation -/

/-- The call has passed the check of the shutdown flag and will be admitted. -/
def Call.SlipsThrough (config : ServerConfig) (call : Call) : Prop :=
  call.phase = .checked ∧ 0 < call.count ∧ call.count ≤ config.maxAllowedIds

/-- From a state in which the drain phase reads zero: every stream that exists at
any time after the token is cancelled had finished before that. -/
def CleanCancel (config : ServerConfig) (state : State) : Prop :=
  ∀ middle cancelling after final,
    run (step config) state (.manage false :: middle) = some cancelling →
      cancelling.manager = .cancelling →
        run (step config) cancelling (.manage false :: after) = some final →
          ∀ index, (final.calls index).hasStream = true →
            (cancelling.calls index).phase = .done

/-! ## The shutdown flag -/

section Steps

variable {config : ServerConfig} {state next base : State}

/-- The flag is set before anything else happens, and never cleared. -/
def FlagSet (state : State) : Prop := state.manager ≠ .idle → state.shutdown = true

theorem FlagSet.step {label : Label} (flag : FlagSet state)
    (stepped : Server.step config state label = some next) : FlagSet next := by
  have moves := moves_of_step stepped
  cases label with
  | work worker now =>
      obtain ⟨shutdown, _, manager, _⟩ := moves.work_frame
      intro busy
      rw [shutdown]
      exact flag (by rwa [manager] at busy)
  | manage timeout =>
      cases moves with
      | beginShutdown => exact fun _ => rfl
      | drain _ at_phase | cancel _ at_phase | skip _ _ at_phase | notify _ _ at_phase
      | finishShutdown _ _ at_phase =>
          intro _
          apply flag
          rw [at_phase]
          exact ManagerPhase.noConfusion
  | arrive | call | receive | disconnect | abort => cases moves <;> exact flag

theorem flagSet_of_run {labels : List Label}
    (ran : run (Server.step config) (initial config) labels = some state) : FlagSet state :=
  run_invariant_always FlagSet (fun _ _ _ flag stepped => flag.step stepped)
    (fun busy => absurd rfl busy) ran

/-! ## After the flag -/

/-- A call that never becomes a stream once the flag is set, or has been one. -/
def Call.Settled (config : ServerConfig) (call : Call) : Prop :=
  match call.phase with
  | .absent | .arrived | .rejected _ | .done => True
  | .checked => ¬ call.SlipsThrough config
  | .counted | .panicked | .feeding _ _ | .returned => False

/-- No call becomes a stream any more, and those that were one were so at `base`. -/
structure SettledSince (config : ServerConfig) (base state : State) : Prop where
  shutdown : state.shutdown = true
  calls : ∀ index, (state.calls index).Settled config ∧
    ((state.calls index).phase = .done → (base.calls index).phase = .done)

theorem Call.Settled.mapChannel_eq {call : Call} (settled : call.Settled config) (number : Nat)
    (change : ChunkChannel → ChunkChannel) : call.mapChannel number change = call := by
  apply Call.mapChannel_closed
  cases found : call.channel? number with
  | none => rfl
  | some channel =>
      obtain ⟨_, remaining, at_phase | ⟨chunk, at_phase⟩⟩ := channel?_eq_some.mp found
      · simp [Call.Settled, at_phase] at settled
      · simp [Call.Settled, at_phase] at settled

/-- Once the flag is set, a settled call can only be rejected. -/
theorem CallMoves.settled {call after : Call} {inflight : BitVec 64} {nextWorker : Nat}
    (moves : CallMoves config state call after inflight nextWorker)
    (shutdown : state.shutdown = true) (settled : call.Settled config) :
    after.Settled config ∧ after.phase ≠ .done := by
  cases moves with
  | refuse | zero | tooMany => exact ⟨trivial, CallPhase.noConfusion⟩
  | check _ up =>
      rw [shutdown] at up
      cases up
  | count at_phase some allowed =>
      simp only [Call.Settled, at_phase] at settled
      exact absurd ⟨at_phase, Nat.pos_of_ne_zero some, allowed⟩ settled
  | spawn at_phase | burst at_phase | complete at_phase | leave at_phase | cut _ at_phase
  | cancelled _ _ at_phase | proceed _ _ at_phase | pick _ _ at_phase | down _ _ _ at_phase
  | take _ _ _ _ at_phase | drained _ _ at_phase | forward _ _ _ at_phase
  | fail _ _ at_phase | giveUp _ _ at_phase => simp [Call.Settled, at_phase] at settled

/-- One call changes into a settled one. -/
theorem SettledSince.updateCall (since : SettledSince config base state) {index : Nat}
    {call : Call} (shutdown : next.shutdown = state.shutdown)
    (calls : next.calls = Function.update state.calls index call)
    (settled : call.Settled config ∧ (call.phase = .done → (base.calls index).phase = .done)) :
    SettledSince config base next where
  shutdown := shutdown.trans since.shutdown
  calls := by
    rw [calls, Function.forall_update_iff state.calls fun index call =>
      call.Settled config ∧ (call.phase = .done → (base.calls index).phase = .done)]
    exact ⟨settled, fun other _ => since.calls other⟩

theorem SettledSince.step {label : Label} (since : SettledSince config base state)
    (stepped : Server.step config state label = some next) : SettledSince config base next := by
  have moves := moves_of_step stepped
  cases label with
  | work worker now =>
      refine ⟨moves.work_frame.1.trans since.shutdown, fun index => ?_⟩
      have stable : ∀ call number change, call = state.calls index →
          Call.mapChannel call number change = state.calls index := by
        rintro _ number change rfl
        exact (since.calls index).1.mapChannel_eq number change
      have same : next.calls index = state.calls index := moves.work_calls stable rfl
      rw [same]
      exact since.calls index
  | arrive count =>
      cases moves with
      | arrive => exact since.updateCall rfl rfl ⟨trivial, CallPhase.noConfusion⟩
  | call index =>
      cases moves with
      | call _ after inflight nextWorker moves =>
          obtain ⟨settled, notDone⟩ := moves.settled since.shutdown (since.calls index).1
          exact since.updateCall rfl rfl ⟨settled, fun done => absurd done notDone⟩
      | reserve _ remaining worker chunkSize at_phase
      | send _ remaining worker chunkSize at_phase =>
          have settled := (since.calls index).1
          simp [Call.Settled, at_phase] at settled
  | receive index =>
      cases moves with
      | receive => exact since.updateCall rfl rfl (since.calls index)
  | disconnect index =>
      cases moves with
      | disconnect => exact since.updateCall rfl rfl (since.calls index)
  | abort index =>
      cases moves with
      | abort => exact ⟨since.shutdown, since.calls⟩
  | manage timeout =>
      cases moves with
      | beginShutdown => exact ⟨rfl, since.calls⟩
      | _ => exact ⟨since.shutdown, since.calls⟩

theorem SettledSince.run {labels : List Label} (since : SettledSince config base state)
    (ran : Transition.run (Server.step config) state labels = some next) :
    SettledSince config base next :=
  run_invariant_always (SettledSince config base)
    (fun _ _ _ since stepped => since.step stepped) since ran

/-! ## Reading zero -/

theorem Call.settled_iff {call : Call} :
    call.Settled config ↔ call.phase.charge = 0 ∧ ¬ call.SlipsThrough config := by
  cases at_phase : call.phase <;>
    simp [Call.Settled, Call.SlipsThrough, CallPhase.charge, at_phase]

theorem Call.Settled.done {call : Call} (settled : call.Settled config)
    (stream : call.hasStream = true) : call.phase = .done := by
  cases at_phase : call.phase with
  | done => rfl
  | _ => simp_all [Call.Settled, Call.hasStream]

theorem cleanCancel_of_settled (shutdown : state.shutdown = true)
    (settled : ∀ index, (state.calls index).Settled config) : CleanCancel config state := by
  intro middle cancelling after final drained _ cancelled index stream
  have before : SettledSince config state cancelling :=
    SettledSince.run ⟨shutdown, fun other => ⟨settled other, id⟩⟩ drained
  have since : SettledSince config cancelling final :=
    SettledSince.run ⟨before.shutdown, fun other => ⟨(before.calls other).1, id⟩⟩ cancelled
  exact (since.calls index).2 ((since.calls index).1.done stream)

/-- The manager reads zero and cancels before anyone else moves. -/
theorem CleanCancel.done_of_run {labels : List Label} {final : State} {index : Nat}
    (clean : CleanCancel config state) (alive : state.aborted = false)
    (draining : state.manager = .draining) (readZero : state.inflight = 0)
    (ran : Transition.run (step config)
      { state with cancelled := true, manager := .notifying 0 } labels = some final)
    (stream : (final.calls index).hasStream = true) : (state.calls index).phase = .done := by
  have drained : Transition.run (step config) state [.manage false] =
      some { state with manager := .cancelling } := by
    simp [Transition.run, Server.step, taskStep, manageStep, alive, draining, readZero]
  have cancels : Server.step config { state with manager := .cancelling } (.manage false) =
      some { state with cancelled := true, manager := .notifying 0 } := by
    simp [Server.step, taskStep, manageStep, alive]
  exact clean [] _ labels final drained rfl (run_cons.mpr ⟨_, cancels, ran⟩) index stream

theorem step_counts (state : State) {index : Nat} (alive : state.aborted = false)
    (slips : (state.calls index).SlipsThrough config) :
    ∃ next, Server.step config state (.call index) = some next ∧ next.aborted = false ∧
      (next.calls index).phase = .counted := by
  obtain ⟨at_phase, positive, allowed⟩ := slips
  have some : (state.calls index).count ≠ 0 := positive.ne'
  have few : ¬ config.maxAllowedIds < (state.calls index).count := not_lt.mpr allowed
  refine ⟨{ state.setCall index { state.calls index with phase := .counted } with
    inflight := state.inflight + 1 }, ?_, alive, ?_⟩
  · simp [Server.step, taskStep, callStep, alive, at_phase, some, few]
  · exact congrArg Call.phase (Function.update_self index _ state.calls)

theorem step_spawns (state : State) {index : Nat} (opens : config.Opens)
    (alive : state.aborted = false) (at_phase : (state.calls index).phase = .counted) :
    ∃ next, Server.step config state (.call index) = some next ∧
      (next.calls index).hasStream = true := by
  have capacity : 0 < config.streamBufferSize ∧ config.streamBufferSize ≤ maxPermits := opens
  refine ⟨state.setCall index
    { state.calls index with phase := .feeding (state.calls index).count .top }, ?_, ?_⟩
  · simp [Server.step, taskStep, callStep, alive, at_phase, capacity]
  · exact congrArg Call.hasStream (Function.update_self index _ state.calls)

/-- A call that is not settled when zero is read can still be, or become, an
unfinished stream after the cancellation. -/
theorem CleanCancel.settled (clean : CleanCancel config state) (opens : config.Opens)
    (ledger : Ledger config state) (alive : state.aborted = false)
    (draining : state.manager = .draining) (readZero : state.inflight = 0) (index : Nat) :
    (state.calls index).Settled config := by
  have unfinished : ∀ labels final,
      Transition.run (step config) { state with cancelled := true, manager := .notifying 0 }
        labels = some final →
      (final.calls index).hasStream = true → (state.calls index).phase = .done :=
    fun labels final ran stream => clean.done_of_run alive draining readZero ran stream
  cases at_phase : (state.calls index).phase with
  | absent | arrived | rejected | done => simp [Call.Settled, at_phase]
  | checked =>
      simp only [Call.Settled, at_phase]
      intro slips
      obtain ⟨counted, first, countedAlive, isCounted⟩ :=
        step_counts { state with cancelled := true, manager := .notifying 0 } alive slips
      obtain ⟨final, second, stream⟩ := step_spawns counted opens countedAlive isCounted
      have done := unfinished [.call index, .call index] final
        (run_cons.mpr ⟨counted, first, run_cons.mpr ⟨final, second, rfl⟩⟩) stream
      rw [at_phase] at done
      cases done
  | counted =>
      obtain ⟨final, stepped, stream⟩ :=
        step_spawns { state with cancelled := true, manager := .notifying 0 } opens alive at_phase
      have done := unfinished [.call index] final (run_cons.mpr ⟨final, stepped, rfl⟩) stream
      rw [at_phase] at done
      cases done
  | feeding | returned =>
      have done := unfinished [] _ rfl (by simp [Call.hasStream, at_phase])
      rw [at_phase] at done
      cases done
  | panicked =>
      have explained := ledger.explained index
      rw [at_phase] at explained
      exact absurd opens explained.1

/-- Zero means that nobody is counted in, unless the counter has wrapped. -/
theorem Ledger.charged_lt_iff (ledger : Ledger config state) (readZero : state.inflight = 0) :
    state.charged < 2 ^ 64 ↔ ∀ index, (state.calls index).phase.charge = 0 := by
  constructor
  · intro small index
    have bound := (state.calls index).phase.charge_le
    have notOne : (state.calls index).phase.charge ≠ 1 := by
      intro charge
      exact ledger.inflight_ne_zero small charge readZero
    omega
  · intro free
    have none : state.charged = 0 := total_eq_zero free
    rw [none]
    decide

/-- An aborted process reads nothing. -/
theorem cleanCancel_of_aborted (aborted : state.aborted = true) : CleanCancel config state := by
  intro middle cancelling after final drained
  obtain ⟨_, stepped, _⟩ := run_cons.mp drained
  rw [(step_eq_some.mp stepped).1] at aborted
  cases aborted

theorem cleanCancel_of_closed {labels : List Label} (closed : ¬ config.Opens)
    (ran : Transition.run (step config) (initial config) labels = some state) :
    CleanCancel config state := by
  intro middle cancelling after final drained _ cancelled index stream
  have whole : Transition.run (step config) (initial config)
      (labels ++ (.manage false :: middle ++ .manage false :: after)) = some final := by
    rw [run_append, ran, Option.bind_some, run_append, drained, Option.bind_some, cancelled]
  exact absurd (opens_of_hasStream whole stream) closed

end Steps

/-! ## The drain phase -/

/-- When the drain phase reads zero, no stream can be cut by the cancellation that
follows, exactly when the process aborts first, no response channel can be opened at
all, or the counter has not wrapped and no admissible call stands between its check of
the shutdown flag and its increment. -/
theorem drain_exact_iff (config : ServerConfig) (labels : List Label) (state : State)
    (ran : Transition.run (step config) (initial config) labels = some state)
    (draining : state.manager = .draining) (readZero : state.inflight = 0) :
    CleanCancel config state ↔
      state.aborted = true ∨ ¬ config.Opens ∨
        (state.charged < 2 ^ 64 ∧ ∀ index, ¬ (state.calls index).SlipsThrough config) := by
  have ledger := ledger_of_run ran
  have shutdown : state.shutdown = true := by
    apply flagSet_of_run ran
    rw [draining]
    exact ManagerPhase.noConfusion
  have settled : (∀ index, (state.calls index).Settled config) ↔
      state.charged < 2 ^ 64 ∧ ∀ index, ¬ (state.calls index).SlipsThrough config := by
    rw [ledger.charged_lt_iff readZero, ← forall_and]
    exact forall_congr' fun index => Call.settled_iff
  rw [← settled]
  constructor
  · intro clean
    cases alive : state.aborted with
    | true => exact Or.inl rfl
    | false =>
        by_cases opens : config.Opens
        · exact Or.inr (Or.inr fun index =>
            clean.settled opens ledger alive draining readZero index)
        · exact Or.inr (Or.inl opens)
  · rintro (aborted | closed | all)
    · exact cleanCancel_of_aborted aborted
    · exact cleanCancel_of_closed closed ran
    · exact cleanCancel_of_settled shutdown all

/-- A stream of one ID that has ended when the drain phase begins. -/
def drainedRun : List Label :=
  List.flatten [[.arrive 1], List.replicate 8 (.call 0), List.replicate 6 (.work 0 5#_),
    List.replicate 5 (.call 0), [.manage false]]

theorem drain_exact_iff_ended :
    ∃ state, Transition.run (step (nodeAt 0)) (initial (nodeAt 0)) drainedRun = some state ∧
      (state.calls 0).hasStream = true ∧ CleanCancel (nodeAt 0) state := by
  have observed : (Transition.run (step (nodeAt 0)) (initial (nodeAt 0)) drainedRun).map
      (fun state => (state.manager, state.inflight, state.arrivals, (state.calls 0).phase)) =
        some (.draining, 0, 1, .done) := by
    decide +kernel
  obtain ⟨state, ran, seen⟩ := Option.map_eq_some_iff.mp observed
  simp only [Prod.mk.injEq] at seen
  obtain ⟨draining, readZero, arrivals, done⟩ := seen
  have few : state.charged < 2 ^ 64 := Ledger.charged_lt (by rw [arrivals]; decide)
  have noSlip : ∀ index, ¬ (state.calls index).SlipsThrough (nodeAt 0) := by
    intro index slips
    have present : (state.calls index).phase ≠ .absent := by
      rw [slips.1]
      exact CallPhase.noConfusion
    have first : index < 1 := arrivals ▸ (ledger_of_run ran).lt_arrivals present
    obtain rfl : index = 0 := by omega
    exact absurd (done.symm.trans slips.1) CallPhase.noConfusion
  refine ⟨state, ran, by simp [Call.hasStream, done], ?_⟩
  exact (drain_exact_iff (nodeAt 0) drainedRun state ran draining readZero).mpr
    (Or.inr (Or.inr ⟨few, noSlip⟩))

/-- A request passes the check of the shutdown flag just before it is set. -/
def slippedRun : List Label :=
  [.arrive 1, .call 0, .manage false]

/-- What follows the cancellation: the request is admitted, its stream is opened and
finds the token cancelled. -/
def cutRun : List Label :=
  .manage false :: List.replicate 5 (.call 0) ++ [.receive 0]

/-- The drain phase reads zero, and all that the client of the admitted stream gets
is the error. -/
theorem drain_cuts_checked_call :
    ∃ config labels state cancelling final, config.Accepted ∧
      Transition.run (step config) (initial config) labels = some state ∧
      state.manager = .draining ∧ state.inflight = 0 ∧
      Transition.run (step config) state [.manage false] = some cancelling ∧
      cancelling.manager = .cancelling ∧ (cancelling.calls 0).phase ≠ .done ∧
      Transition.run (step config) cancelling cutRun = some final ∧
      (final.calls 0).hasStream = true ∧
      (final.calls 0).received = [.error .serviceShutdown] := by
  have observed :
      ((Transition.run (step (nodeAt 0)) (initial (nodeAt 0)) slippedRun).bind fun state =>
        (Transition.run (step (nodeAt 0)) state [.manage false]).bind fun cancelling =>
          (Transition.run (step (nodeAt 0)) cancelling cutRun).map fun final =>
            ((state.manager, state.inflight), (cancelling.manager, (cancelling.calls 0).phase),
              (final.calls 0).hasStream, (final.calls 0).received)) =
        some ((.draining, 0), (.cancelling, .checked), true, [.error .serviceShutdown]) := by
    decide +kernel
  obtain ⟨state, ran, rest⟩ := Option.bind_eq_some_iff.mp observed
  obtain ⟨cancelling, drained, rest⟩ := Option.bind_eq_some_iff.mp rest
  obtain ⟨final, cancelled, seen⟩ := Option.map_eq_some_iff.mp rest
  simp only [Prod.mk.injEq] at seen
  obtain ⟨⟨draining, readZero⟩, ⟨isCancelling, checked⟩, stream, received⟩ := seen
  refine ⟨nodeAt 0, slippedRun, state, cancelling, final, nodeAt_zero_accepted, ran, draining,
    readZero, drained, isCancelling, ?_, cancelled, stream, received⟩
  rw [checked]
  exact CallPhase.noConfusion

end Ferroid.Server
