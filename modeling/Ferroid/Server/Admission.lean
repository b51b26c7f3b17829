import Ferroid.Library.Transition
import Ferroid.Server.CallSteps

/-!
Contract: what a server does is what its configuration admits.

Owns the configurations in which requests are served at all, and the invariant of
every run that traces open streams, requests on their way, busy workers and sent
chunks back to the configuration.

Does not own how many IDs a stream gets (`Server.Invariant`) or which ones
(`Server.Production`).
-/

namespace Ferroid.Server

open Ferroid.Generator
open Ferroid.Library

/-! ## Configurations -/

/-- Requests are admitted, ask for something, and find workers and channels. -/
structure ServerConfig.Serves (config : ServerConfig) : Prop where
  chunks : 0 < config.idsPerChunk
  fits : config.chunkBytes ≤ isizeMax
  admits : 0 < config.maxAllowedIds
  opens : 0 < config.streamBufferSize ∧ config.streamBufferSize ≤ maxPermits

/-- Streams are opened, and one of their requests may ask for that many IDs. -/
structure ServerConfig.Asks (config : ServerConfig) (size : Nat) : Prop where
  admits : 0 < config.maxAllowedIds
  opens : 0 < config.streamBufferSize ∧ config.streamBufferSize ≤ maxPermits
  bound : size ≤ config.idsPerChunk

theorem ServerConfig.Asks.zero {config : ServerConfig} {size : Nat} (asks : config.Asks size) :
    config.Asks 0 :=
  ⟨asks.admits, asks.opens, Nat.zero_le _⟩

/-! ## The invariant -/

/-- The size of the request that is being made. -/
def Stage.asked : Stage → Nat
  | .checking chunkSize | .picking chunkSize | .sending _ chunkSize | .pushing _ chunkSize =>
      chunkSize
  | .top | .receiving _ | .forwarding _ _ | .failing _ => 0

def CallPhase.AdmittedBy (config : ServerConfig) : CallPhase → Prop
  | .counted => 0 < config.maxAllowedIds
  | .feeding _ stage => config.Asks stage.asked
  | .returned | .done => config.Asks 0
  | .absent | .arrived | .checked | .rejected _ | .panicked => True

def WorkerPhase.AdmittedBy (config : ServerConfig) : WorkerPhase → Prop
  | .waiting => config.chunkBytes ≤ isizeMax
  | .handling job => config.chunkBytes ≤ isizeMax ∧ config.Asks job.request.chunkSize ∧
      (job.point ≠ .generating → 0 < config.idsPerChunk)
  | .starting | .stopping | .stopped | .panicked => True

structure Worker.AdmittedBy (config : ServerConfig) (worker : Worker) : Prop where
  phase : worker.phase.AdmittedBy config
  inbox : ∀ request, .stream request ∈ worker.inbox → config.Asks request.chunkSize
  buffer : 0 < worker.buffPos → 0 < config.idsPerChunk
  sent : worker.sent ≠ [] → config.Serves

structure State.AdmittedBy (config : ServerConfig) (state : State) : Prop where
  calls : ∀ index, (state.calls index).phase.AdmittedBy config
  workers : ∀ index, (state.workers index).AdmittedBy config

section Steps

variable {config : ServerConfig} {state next : State}

theorem admittedBy_initial (config : ServerConfig) : (initial config).AdmittedBy config where
  calls _ := trivial
  workers _ := ⟨trivial, by simp [initial], by simp [initial], by simp [initial]⟩

/-! ## Calls -/

theorem CallMoves.admittedBy {call after : Call} {inflight : BitVec 64} {nextWorker : Nat}
    (moves : CallMoves config state call after inflight nextWorker)
    (admitted : call.phase.AdmittedBy config) : after.phase.AdmittedBy config := by
  cases moves with
  | refuse | check | zero | tooMany | burst => trivial
  | count _ some allowed => exact Nat.lt_of_lt_of_le (Nat.pos_of_ne_zero some) allowed
  | spawn at_phase capacity =>
      rw [at_phase] at admitted
      exact ⟨admitted, capacity, Nat.zero_le _⟩
  | cut remaining at_phase more =>
      rw [at_phase] at admitted
      exact ⟨admitted.admits, admitted.opens, Nat.min_le_right _ _⟩
  | proceed _ _ at_phase | pick _ _ at_phase =>
      rw [at_phase] at admitted
      exact admitted
  | complete at_phase | cancelled _ _ at_phase | down _ _ _ at_phase | take _ _ _ _ at_phase
  | drained _ _ at_phase | forward _ _ _ at_phase | fail _ _ at_phase | giveUp _ _ at_phase =>
      rw [at_phase] at admitted
      exact admitted.zero
  | leave at_phase =>
      rw [at_phase] at admitted
      exact admitted

theorem admittedBy_mapChannel (call : Call) (number : Nat) (change : ChunkChannel → ChunkChannel)
    (admitted : call.phase.AdmittedBy config) :
    (call.mapChannel number change).phase.AdmittedBy config := by
  rcases call.mapChannel_cases number change with
    ⟨_, same⟩ | ⟨remaining, channel, _, at_phase, mapped⟩ |
      ⟨remaining, channel, chunk, _, at_phase, mapped⟩
  · rwa [same]
  · rw [at_phase] at admitted
    rw [mapped]
    exact admitted
  · rw [at_phase] at admitted
    rw [mapped]
    exact admitted

/-! ## Workers -/

theorem WorkMoves.admittedBy {now : ServerLayout.Ty} {worker after : Worker}
    (moves : WorkMoves config state now worker after) (admitted : worker.AdmittedBy config) :
    after.AdmittedBy config := by
  obtain ⟨phase, inbox, buffer, sent⟩ := admitted
  cases moves with
  | start _ fits => exact ⟨fits, inbox, fun some => absurd some (Nat.lt_irrefl 0), sent⟩
  | takeShutdown rest _ waiting =>
      refine ⟨trivial, fun request member => inbox request ?_, buffer, sent⟩
      rw [waiting]
      exact List.mem_cons_of_mem _ member
  | pause => exact ⟨phase, inbox, buffer, sent⟩
  | write job id at_phase _ more =>
      rw [at_phase] at phase
      obtain ⟨fits, asks, _⟩ := phase
      have chunks : 0 < config.idsPerChunk :=
        Nat.lt_of_lt_of_le (Nat.zero_lt_of_lt more) asks.bound
      exact ⟨⟨fits, asks, fun _ => chunks⟩, inbox, fun _ => chunks, sent⟩
  | rest job at_phase _ _ some =>
      rw [at_phase] at phase
      exact ⟨⟨phase.1, phase.2.1, fun _ => buffer some⟩, inbox,
        fun some => absurd some (Nat.lt_irrefl 0), sent⟩
  | full job at_phase checking =>
      rw [at_phase] at phase
      exact ⟨⟨phase.1, phase.2.1, fun _ => phase.2.2 (by simp [checking])⟩, inbox, buffer, sent⟩

/-- A worker that can send a chunk shows that requests are served. -/
theorem WorkerPhase.AdmittedBy.serves {job : Job}
    (admitted : (WorkerPhase.handling job).AdmittedBy config)
    (sending : job.point ≠ .generating) : config.Serves :=
  ⟨admitted.2.2 sending, admitted.1, admitted.2.1.admits, admitted.2.1.opens⟩

/-- A worker that goes away keeps what it has sent. -/
theorem Worker.AdmittedBy.leave {worker after : Worker} (admitted : worker.AdmittedBy config)
    (phase : after.phase.AdmittedBy config) (inbox : after.inbox = [])
    (buffPos : after.buffPos = worker.buffPos) (sent : after.sent = worker.sent) :
    after.AdmittedBy config := by
  refine ⟨phase, ?_, ?_, ?_⟩
  · simp [inbox]
  · rw [buffPos]
    exact admitted.buffer
  · rw [sent]
    exact admitted.sent

/-! ## Whole runs -/

/-- One call changes. -/
theorem State.AdmittedBy.updateCall (admitted : state.AdmittedBy config) {index : Nat}
    {call : Call} (calls : next.calls = Function.update state.calls index call)
    (after : call.phase.AdmittedBy config) :
    ∀ other, (next.calls other).phase.AdmittedBy config := by
  rw [calls, Function.forall_update_iff state.calls fun _ call => call.phase.AdmittedBy config]
  exact ⟨after, fun other _ => admitted.calls other⟩

/-- One worker changes. -/
theorem State.AdmittedBy.updateWorker (admitted : state.AdmittedBy config) {index : Nat}
    {worker : Worker} (workers : next.workers = Function.update state.workers index worker)
    (after : worker.AdmittedBy config) : ∀ other, (next.workers other).AdmittedBy config := by
  rw [workers, Function.forall_update_iff state.workers fun _ worker => worker.AdmittedBy config]
  exact ⟨after, fun other _ => admitted.workers other⟩

/-- A worker's step keeps all workers admitted. -/
theorem Moves.work_admittedBy {index : Nat} {now : ServerLayout.Ty}
    (moves : Moves config state (.work index now) next) (admitted : state.AdmittedBy config) :
    ∀ other, (next.workers other).AdmittedBy config := by
  have before := admitted.workers index
  have phase := before.phase
  cases moves with
  | work _ _ after known moves => exact admitted.updateWorker rfl (moves.admittedBy before)
  | allocationPanic _ _ known at_phase large =>
      rw [dropInbox_eq]
      exact admitted.updateWorker rfl (before.leave trivial rfl rfl rfl)
  | stop _ _ known at_phase =>
      rw [dropInbox_eq]
      exact admitted.updateWorker rfl (before.leave trivial rfl rfl rfl)
  | indexPanic _ _ job id known at_phase =>
      rw [dropInbox_eq]
      exact admitted.updateWorker rfl (before.leave trivial rfl rfl rfl)
  | takeStream _ _ request inbox known at_phase waiting =>
      rw [at_phase] at phase
      have asks : config.Asks request.chunkSize := before.inbox request (by simp [waiting])
      have rest : ∀ other, .stream other ∈ inbox → config.Asks other.chunkSize :=
        fun other member => before.inbox other (by simp [waiting, member])
      exact admitted.updateWorker rfl
        ⟨⟨phase, asks, fun sending => absurd rfl sending⟩, rest, before.buffer, before.sent⟩
  | finish _ _ job known at_phase =>
      rw [at_phase] at phase
      exact admitted.updateWorker rfl ⟨phase.1, before.inbox, before.buffer, before.sent⟩
  | pushFull _ _ job bytes known at_phase sending =>
      rw [at_phase] at phase
      have serves : config.Serves := phase.serves (by simp [sending])
      exact admitted.updateWorker rfl ⟨⟨phase.1, phase.2.1, fun _ => serves.chunks⟩, before.inbox,
        fun _ => serves.chunks, fun _ => serves⟩
  | pushRest _ _ job bytes known at_phase sending =>
      rw [at_phase] at phase
      have serves : config.Serves := phase.serves (by simp [sending])
      exact admitted.updateWorker rfl
        ⟨phase.1, before.inbox, before.buffer, fun _ => serves⟩

theorem State.AdmittedBy.step {label : Label} (admitted : state.AdmittedBy config)
    (stepped : Server.step config state label = some next) : next.AdmittedBy config := by
  have moves := moves_of_step stepped
  cases label with
  | work index now =>
      refine ⟨fun other => ?_, moves.work_admittedBy admitted⟩
      exact moves.work_calls admittedBy_mapChannel (admitted.calls other)
  | arrive count =>
      cases moves with
      | arrive => exact ⟨admitted.updateCall rfl trivial, admitted.workers⟩
  | call index =>
      have before := admitted.calls index
      cases moves with
      | call _ after inflight nextWorker moves =>
          exact ⟨admitted.updateCall rfl (moves.admittedBy before), admitted.workers⟩
      | reserve _ remaining worker chunkSize at_phase =>
          rw [at_phase] at before
          have target := admitted.workers worker
          exact ⟨admitted.updateCall rfl before, admitted.updateWorker rfl
            ⟨target.phase, target.inbox, target.buffer, target.sent⟩⟩
      | send _ remaining worker chunkSize at_phase =>
          rw [at_phase] at before
          have target := admitted.workers worker
          have inbox : ∀ request, .stream request ∈ (state.workers worker).inbox ++
              [.stream ⟨index, (state.calls index).channels, chunkSize⟩] →
              config.Asks request.chunkSize := by
            intro request member
            rcases List.mem_append.mp member with earlier | last
            · exact target.inbox request earlier
            · cases List.mem_singleton.mp last
              exact before
          exact ⟨admitted.updateCall rfl before.zero, admitted.updateWorker rfl
            ⟨target.phase, inbox, target.buffer, target.sent⟩⟩
  | receive index =>
      cases moves with
      | receive => exact ⟨admitted.updateCall rfl (admitted.calls index), admitted.workers⟩
  | disconnect index =>
      cases moves with
      | disconnect => exact ⟨admitted.updateCall rfl (admitted.calls index), admitted.workers⟩
  | abort index =>
      cases moves with
      | abort => exact ⟨admitted.calls, admitted.workers⟩
  | manage timeout =>
      cases moves with
      | notify _ index =>
          have target := admitted.workers index
          have inbox : ∀ request, .stream request ∈ (state.workers index).inbox ++ [.shutdown] →
              config.Asks request.chunkSize := by
            intro request member
            exact target.inbox request (by simpa using member)
          exact ⟨admitted.calls, admitted.updateWorker rfl
            ⟨target.phase, inbox, target.buffer, target.sent⟩⟩
      | _ => exact ⟨admitted.calls, admitted.workers⟩

theorem admittedBy_of_run {labels : List Label}
    (ran : Transition.run (Server.step config) (initial config) labels = some state) :
    state.AdmittedBy config :=
  Transition.run_invariant_always (State.AdmittedBy config)
    (fun _ _ _ admitted stepped => admitted.step stepped) (admittedBy_initial config) ran

/-- A response stream has a channel of a supported capacity. -/
theorem opens_of_hasStream {labels : List Label}
    (ran : Transition.run (Server.step config) (initial config) labels = some state) {index : Nat}
    (stream : (state.calls index).hasStream = true) :
    0 < config.streamBufferSize ∧ config.streamBufferSize ≤ maxPermits := by
  have admitted := (admittedBy_of_run ran).calls index
  cases at_phase : (state.calls index).phase with
  | feeding | returned | done =>
      rw [at_phase] at admitted
      exact admitted.opens
  | _ => simp [Call.hasStream, at_phase] at stream

/-- A chunk is sent only by a server that serves requests. -/
theorem serves_of_sent {labels : List Label}
    (ran : Transition.run (Server.step config) (initial config) labels = some state) {index : Nat}
    (sent : (state.workers index).sent ≠ []) : config.Serves :=
  ((admittedBy_of_run ran).workers index).sent sent

end Steps

end Ferroid.Server
