import Ferroid.Server.Delivery
import Ferroid.Server.Inflight
import Ferroid.Server.Wiring

/-!
Contract: what the metrics of the server show.

Owns what each step of the server reports to its instruments, the rule by which an
instrument and a number that the calls carry stay equal over every run, and what follows
for each instrument: requests, IDs asked for, streams in flight, errors, IDs generated and
stream durations.

Does not own the readings of a clock (a duration is reported, its value is not modelled)
or how the instruments are exported.
-/

namespace Ferroid.Server

open Ferroid.Id
open Ferroid.Generator
open Ferroid.Library

/-! ## Instruments -/

/-- A call of one of the telemetry functions. -/
inductive Measurement where
  | incrementRequests
  | recordIdsPerRequest (count : Nat)
  | incrementStreamsInflight
  | decrementStreamsInflight
  | incrementStreamErrors
  | recordStreamDuration
  | incrementIdsGenerated (count : Nat)
deriving DecidableEq, Repr

namespace Measurement

/-- The counter `requests`. -/
def requests : Measurement → Int
  | .incrementRequests => 1
  | _ => 0

/-- The counter `errors`. -/
def errors : Measurement → Int
  | .incrementStreamErrors => 1
  | _ => 0

end Measurement

/-- What an instrument shows after it was given these measurements. -/
def shown (instrument : Measurement → Int) (log : List Measurement) : Int :=
  (log.map instrument).sum

/-- What `stream_ids` and its spawned task report in the next step. -/
def Call.measurements (config : ServerConfig) (call : Call) : List Measurement :=
  match call.phase with
  | .checked =>
      if call.count = 0 then [.incrementStreamErrors]
      else if call.count > config.maxAllowedIds then [.incrementStreamErrors]
      else [.incrementRequests, .recordIdsPerRequest call.count, .incrementStreamsInflight]
  | .returned => [.decrementStreamsInflight, .recordStreamDuration]
  | _ => []

/-- What `inspect_ok` and `inspect_err` report of an item that leaves a response stream. -/
def Item.measurements : Item → List Measurement
  | .chunk packedIds => [.incrementIdsGenerated (packedIds.length / SNOWFLAKE_ID_SIZE)]
  | .error _ => [.incrementStreamErrors]

/-- What a step reports. -/
def measurements (config : ServerConfig) (state : State) : Label → List Measurement
  | .call index => (state.calls index).measurements config
  | .receive index =>
      match (state.calls index).resp with
      | item :: _ => item.measurements
      | [] => []
  | .arrive _ | .disconnect _ | .work _ _ | .abort _ | .manage _ => []

/-- Everything a run reports. -/
def metricsLog (config : ServerConfig) (labels : List Label) : List Measurement :=
  Transition.logged (step config) (measurements config) (initial config) labels

/-! ## Standings -/

/-- How far a call has come, as the instruments tell it: not admitted, refused for its
count, admitted, lost with its handler, or ended as a stream. -/
inductive Standing where
  | outside
  | invalid
  | admitted
  | lost
  | finished
deriving DecidableEq, Repr

def CallPhase.standing : CallPhase → Standing
  | .absent | .arrived | .checked | .rejected .serviceShutdown => .outside
  | .rejected .zeroCount | .rejected (.tooMany _ _) => .invalid
  | .counted | .feeding _ _ | .returned => .admitted
  | .panicked => .lost
  | .done => .finished

/-- What a call reports with a step, and how the step changes its standing. -/
inductive Reports (config : ServerConfig) (call after : Call) : Prop where
  | nothing (reported : call.measurements config = [])
      (same : after.phase.standing = call.phase.standing)
  | refused (reported : call.measurements config = [.incrementStreamErrors])
      (before : call.phase.standing = .outside) (now : after.phase.standing = .invalid)
  | admitted
      (reported : call.measurements config =
        [.incrementRequests, .recordIdsPerRequest call.count, .incrementStreamsInflight])
      (before : call.phase.standing = .outside) (now : after.phase.standing = .admitted)
  | lost (reported : call.measurements config = []) (before : call.phase.standing = .admitted)
      (now : after.phase.standing = .lost)
  | finished
      (reported : call.measurements config = [.decrementStreamsInflight, .recordStreamDuration])
      (before : call.phase.standing = .admitted) (now : after.phase.standing = .finished)

section Moves

variable {config : ServerConfig} {state next : State}

theorem CallMoves.reports {call after : Call} {inflight : BitVec 64} {nextWorker : Nat}
    (moves : CallMoves config state call after inflight nextWorker) :
    Reports config call after := by
  cases moves with
  | refuse at_phase | check at_phase | spawn at_phase | complete at_phase
  | cut _ at_phase | cancelled _ _ at_phase | proceed _ _ at_phase | pick _ _ at_phase
  | down _ _ _ at_phase | take _ _ _ _ at_phase | drained _ _ at_phase | forward _ _ _ at_phase
  | fail _ _ at_phase | giveUp _ _ at_phase =>
      apply Reports.nothing
      · simp only [Call.measurements, at_phase]
      · simp only [at_phase, CallPhase.standing]
  | zero at_phase none =>
      apply Reports.refused
      · simp only [Call.measurements, at_phase, none, if_true]
      · rw [at_phase]
        rfl
      · rfl
  | tooMany at_phase some many =>
      apply Reports.refused
      · simp only [Call.measurements, at_phase, if_neg some, if_pos many]
      · rw [at_phase]
        rfl
      · rfl
  | count at_phase some allowed =>
      apply Reports.admitted
      · simp only [Call.measurements, at_phase, if_neg some, if_neg (Nat.not_lt.mpr allowed)]
      · rw [at_phase]
        rfl
      · rfl
  | burst at_phase =>
      apply Reports.lost
      · simp only [Call.measurements, at_phase]
      · rw [at_phase]
        rfl
      · rfl
  | leave at_phase =>
      apply Reports.finished
      · simp only [Call.measurements, at_phase]
      · rw [at_phase]
        rfl
      · rfl

theorem CallMoves.client {call after : Call} {inflight : BitVec 64} {nextWorker : Nat}
    (moves : CallMoves config state call after inflight nextWorker) :
    after.count = call.count ∧ after.received = call.received := by
  cases moves with
  | _ => exact ⟨rfl, rfl⟩

theorem CallPhase.Alike.standing_eq {first second : CallPhase} (alike : first.Alike second) :
    second.standing = first.standing := by
  cases alike <;> rfl

theorem Call.client_mapChannel (call : Call) (number : Nat)
    (change : ChunkChannel → ChunkChannel) :
    (call.mapChannel number change).count = call.count ∧
      (call.mapChannel number change).received = call.received := by
  rcases call.mapChannel_cases number change with
    ⟨_, same⟩ | ⟨_, _, _, _, mapped⟩ | ⟨_, _, _, _, _, mapped⟩
  · rw [same]
    exact ⟨rfl, rfl⟩
  · rw [mapped]
    exact ⟨rfl, rfl⟩
  · rw [mapped]
    exact ⟨rfl, rfl⟩

end Moves

/-! ## Numbers that calls carry -/

/-- A number that a call carries, by its standing, its count and what its client took. -/
abbrev Weight := Standing → Nat → List Item → Nat

def Call.carries (weight : Weight) (call : Call) : Nat :=
  weight call.phase.standing call.count call.received

/-- All calls together. -/
def State.carries (weight : Weight) (state : State) : Nat :=
  total (Call.carries weight) state.arrivals state.calls

/-- An instrument shows such a number: it starts at nothing, and each change of standing
and each item changes both alike. -/
structure Tallies (weight : Weight) (instrument : Measurement → Int) : Prop where
  fresh : ∀ count, weight .outside count [] = 0
  refused : ∀ count received, (weight .invalid count received : Int) =
    weight .outside count received + shown instrument [.incrementStreamErrors]
  admitted : ∀ count received, (weight .admitted count received : Int) =
    weight .outside count received +
      shown instrument [.incrementRequests, .recordIdsPerRequest count, .incrementStreamsInflight]
  lost : ∀ count received, weight .lost count received = weight .admitted count received
  finished : ∀ count received, (weight .finished count received : Int) =
    weight .admitted count received +
      shown instrument [.decrementStreamsInflight, .recordStreamDuration]
  receive : ∀ standing count received item,
    (weight standing count (received ++ [item]) : Int) =
      weight standing count received + shown instrument item.measurements

section Tally

variable {config : ServerConfig} {state next : State} {weight : Weight}
  {instrument : Measurement → Int}

theorem Tallies.call (tallies : Tallies weight instrument) {call after : Call}
    {inflight : BitVec 64} {nextWorker : Nat}
    (moves : CallMoves config state call after inflight nextWorker) :
    (after.carries weight : Int) =
      call.carries weight + shown instrument (call.measurements config) := by
  obtain ⟨count, received⟩ := moves.client
  unfold Call.carries
  rw [count, received]
  cases moves.reports with
  | nothing reported same =>
      rw [reported, same]
      exact (Int.add_zero _).symm
  | refused reported before now =>
      rw [reported, before, now]
      exact tallies.refused _ _
  | admitted reported before now =>
      rw [reported, before, now]
      exact tallies.admitted _ _
  | lost reported before now =>
      rw [reported, before, now, tallies.lost]
      exact (Int.add_zero _).symm
  | finished reported before now =>
      rw [reported, before, now]
      exact tallies.finished _ _

theorem Call.carries_of_alike {left right : Call} (alike : left.phase.Alike right.phase)
    (count : right.count = left.count) (received : right.received = left.received) :
    right.carries weight = left.carries weight := by
  rw [carries, carries, alike.standing_eq, count, received]

/-- What a worker does to a call is nothing that an instrument shows. -/
theorem Moves.work_carries {worker : Nat} {now : ServerLayout.Ty}
    (moves : Moves config state (.work worker now) next) (index : Nat) :
    (next.calls index).carries weight = (state.calls index).carries weight := by
  have stable : ∀ call number change,
      Call.carries weight call = (state.calls index).carries weight →
        (call.mapChannel number change).carries weight = (state.calls index).carries weight := by
    intro call number change same
    obtain ⟨count, received⟩ := call.client_mapChannel number change
    rw [← same]
    exact Call.carries_of_alike (call.alike_mapChannel number change) count received
  exact moves.work_calls stable rfl

/-- One call changes. -/
theorem Ledger.carries_update (ledger : Ledger config state) {index : Nat} {call : Call}
    {change : Int} (present : (state.calls index).phase ≠ .absent)
    (changed : (call.carries weight : Int) = (state.calls index).carries weight + change) :
    (total (Call.carries weight) state.arrivals (Function.update state.calls index call) : Int) =
      state.carries weight + change := by
  have updated : total (Call.carries weight) state.arrivals
      (Function.update state.calls index call) + (state.calls index).carries weight =
        state.carries weight + call.carries weight :=
    total_update_of_lt (ledger.lt_arrivals present)
  omega

/-- A call goes on, and reports nothing. -/
theorem Ledger.carries_quiet (ledger : Ledger config state) {index : Nat} {call : Call}
    (present : (state.calls index).phase ≠ .absent)
    (alike : (state.calls index).phase.Alike call.phase)
    (count : call.count = (state.calls index).count)
    (received : call.received = (state.calls index).received) :
    (total (Call.carries weight) state.arrivals (Function.update state.calls index call) : Int) =
      state.carries weight + shown instrument [] := by
  apply ledger.carries_update present
  rw [Call.carries_of_alike alike count received]
  exact (Int.add_zero _).symm

/-- A step changes what the calls carry by what it reports. -/
theorem Tallies.step (tallies : Tallies weight instrument) (ledger : Ledger config state)
    {label : Label} (stepped : Server.step config state label = some next) :
    (next.carries weight : Int) =
      state.carries weight + shown instrument (measurements config state label) := by
  have moves := moves_of_step stepped
  cases label with
  | work worker now =>
      have same : next.carries weight = state.carries weight := by
        rw [State.carries, moves.work_frame.2.2.2]
        exact total_congr moves.work_carries
      rw [same]
      exact (Int.add_zero _).symm
  | arrive count =>
      cases moves with
      | arrive =>
          have same : total (Call.carries weight) (state.arrivals + 1) (Function.update
              state.calls state.arrivals
                { Call.absent with count := count, phase := .arrived }) =
                  state.carries weight := by
            rw [total_succ_update, State.carries]
            exact congrArg (_ + ·) (tallies.fresh count)
          exact (congrArg Int.ofNat same).trans (Int.add_zero _).symm
  | call index =>
      cases moves with
      | call _ after inflight nextWorker moves =>
          exact ledger.carries_update moves.phase_ne_absent (tallies.call moves)
      | reserve _ remaining worker chunkSize at_phase =>
          have present : (state.calls index).phase ≠ .absent := by
            rw [at_phase]
            exact CallPhase.noConfusion
          have nothing : measurements config state (.call index) = [] := by
            simp only [measurements, Call.measurements, at_phase]
          have alike : (state.calls index).phase.Alike
              (.feeding remaining (.pushing worker chunkSize)) := by
            rw [at_phase]
            exact .feeding _ _ _ _
          rw [nothing]
          exact ledger.carries_quiet present alike rfl rfl
      | send _ remaining worker chunkSize at_phase =>
          have present : (state.calls index).phase ≠ .absent := by
            rw [at_phase]
            exact CallPhase.noConfusion
          have nothing : measurements config state (.call index) = [] := by
            simp only [measurements, Call.measurements, at_phase]
          have alike : (state.calls index).phase.Alike (.feeding remaining (.receiving
              ⟨(state.calls index).channels, worker, chunkSize, .queued, false, []⟩)) := by
            rw [at_phase]
            exact .feeding _ _ _ _
          rw [nothing]
          exact ledger.carries_quiet present alike rfl rfl
  | receive index =>
      cases moves with
      | receive _ item resp stream connected waiting =>
          have reported : measurements config state (.receive index) = item.measurements := by
            simp only [measurements, waiting]
          rw [reported]
          exact ledger.carries_update (phase_ne_absent_of_hasStream stream)
            (tallies.receive _ _ _ item)
  | disconnect index =>
      cases moves with
      | disconnect _ stream connected =>
          exact ledger.carries_quiet (phase_ne_absent_of_hasStream stream) (.same _) rfl rfl
  | abort worker =>
      cases moves with
      | abort => exact (Int.add_zero _).symm
  | manage timeout => cases moves <;> exact (Int.add_zero _).symm

/-- Over every run the instrument shows what the calls carry. -/
theorem Tallies.run (tallies : Tallies weight instrument) {labels : List Label}
    (ran : Transition.run (Server.step config) (initial config) labels = some state) :
    shown instrument (metricsLog config labels) = state.carries weight := by
  have accounted := Transition.measure_eq_logged
    (fun state : State => (state.carries weight : Int)) instrument (Ledger config)
    (fun _ _ _ ledger stepped => tallies.step ledger stepped)
    (fun _ _ _ ledger stepped => ledger.step stepped) (ledger_initial config) ran
  exact (accounted.trans (Int.zero_add _)).symm

end Tally

/-! ## The instruments -/

/-- One for a call that was admitted. -/
def Standing.taken : Standing → Nat
  | .admitted | .lost | .finished => 1
  | .outside | .invalid => 0

def Item.isError : Item → Bool
  | .error _ => true
  | .chunk _ => false

namespace Weight

/-- Admitted requests. -/
def requests : Weight := fun standing _ _ => standing.taken

/-- Admitted requests whose handler panicked. -/
def lost : Weight := fun standing _ _ => if standing = .lost then 1 else 0

/-- Requests refused for their count, and error items that clients have taken. -/
def errors : Weight := fun standing _ received =>
  (if standing = .invalid then 1 else 0) + received.countP Item.isError

end Weight

namespace Tallies

theorem requests : Tallies Weight.requests Measurement.requests where
  fresh _ := rfl
  refused _ _ := rfl
  admitted _ _ := rfl
  lost _ _ := rfl
  finished _ _ := rfl
  receive _ _ _ item := by cases item <;> exact (Int.add_zero _).symm

theorem errors : Tallies Weight.errors Measurement.errors where
  fresh _ := rfl
  refused count received := by
    simp [shown, Weight.errors, Measurement.errors, Int.add_comm]
  admitted _ _ := (Int.add_zero _).symm
  lost _ _ := rfl
  finished _ _ := (Int.add_zero _).symm
  receive standing count received item := by
    cases item with
    | chunk packedIds =>
        simp [shown, Weight.errors, Measurement.errors, Item.measurements, Item.isError]
    | error error =>
        simp [shown, Weight.errors, Measurement.errors, Item.measurements, Item.isError,
          Int.add_assoc]

end Tallies

/-! ## What the instruments say together -/

/-- Only a call that was admitted has a client that took something. -/
def Call.Untouched (call : Call) : Prop := call.phase.standing.taken = 0 → call.received = []

section Together

variable {config : ServerConfig} {state next : State}

theorem CallMoves.untouched {call after : Call} {inflight : BitVec 64} {nextWorker : Nat}
    (moves : CallMoves config state call after inflight nextWorker) (untouched : call.Untouched) :
    after.Untouched := by
  intro outside
  rw [moves.client.2]
  apply untouched
  cases moves.reports with
  | nothing reported same => rwa [← same]
  | refused reported before now =>
      rw [before]
      rfl
  | admitted reported before now =>
      rw [now] at outside
      cases outside
  | lost reported before now =>
      rw [now] at outside
      cases outside
  | finished reported before now =>
      rw [now] at outside
      cases outside

theorem Call.Untouched.mapChannel {call : Call} (untouched : call.Untouched) (number : Nat)
    (change : ChunkChannel → ChunkChannel) : (call.mapChannel number change).Untouched := by
  intro outside
  rw [(call.client_mapChannel number change).2]
  rw [(call.alike_mapChannel number change).standing_eq] at outside
  exact untouched outside

end Together

end Ferroid.Server
