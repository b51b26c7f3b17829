import Ferroid.Server.Admission
import Ferroid.Server.Production

/-!
Contract: the servers that emit IDs are those that serve requests, with every
one of their workers.

Owns a schedule that brings a request to any chosen worker, and the ID this worker
then emits.

Does not own what all IDs of a run have in common (`Server.Production`).
-/

namespace Ferroid.Server

open Ferroid.Id
open Ferroid.Generator
open Ferroid.Library

/-! ## Choosing a worker -/

/-- A request for one ID that gets as far as picking its worker. -/
def queueUp (number : Nat) : List Label := .arrive 1 :: List.replicate 6 (.call number)

/-- So many requests have picked their workers; the workers have not moved. -/
structure Lined (config : ServerConfig) (number : Nat) (state : State) : Prop where
  workers : state.workers = (initial config).workers
  nextWorker : state.nextWorker = number
  arrivals : state.arrivals = number
  accepting : state.shutdown = false
  running : state.cancelled = false
  alive : state.aborted = false

section Choice

variable {config : ServerConfig}

theorem Lined.queueUp (checked : config.Checked) (serves : config.Serves) {number : Nat}
    (known : number < config.numWorkers) {state : State} (lined : Lined config number state) :
    ∃ next, Transition.run (step config) state (Server.queueUp number) = some next ∧
      Lined config (number + 1) next ∧
      (next.calls number).phase = .feeding 0 (.sending number 1) ∧
      (next.calls number).channels = 1 := by
  have few := checked.numWorkers_le
  have wraps : (number + 1) % usizeRange = number + 1 :=
    Nat.mod_eq_of_lt (by rw [usizeRange]; omega)
  have chosen : number % config.numWorkers = number := Nat.mod_eq_of_lt known
  have least : min 1 config.idsPerChunk = 1 := Nat.min_eq_left serves.chunks
  have allowed : ¬ config.maxAllowedIds < 1 := Nat.not_lt.mpr serves.admits
  simp [Server.queueUp, Transition.run, step, taskStep, callStep, feedStep, State.setCall,
    lined.alive, lined.arrivals, lined.accepting, lined.running, lined.nextWorker, serves.opens,
    allowed, least, chosen, usizeRange]
  exact ⟨⟨lined.workers, wraps, rfl, rfl, rfl, rfl⟩, rfl⟩

/-- Requests before the one that matters. -/
def queueAll (number : Nat) : List Label := (List.range number).flatMap queueUp

theorem lined_queueAll (checked : config.Checked) (serves : config.Serves) {number : Nat}
    (bound : number ≤ config.numWorkers) :
    ∃ state, Transition.run (step config) (initial config) (queueAll number) = some state ∧
      Lined config number state := by
  induction number with
  | zero => exact ⟨initial config, rfl, rfl, rfl, rfl, rfl, rfl, rfl⟩
  | succ number inductionHypothesis =>
      obtain ⟨state, ran, lined⟩ := inductionHypothesis (Nat.le_of_succ_le bound)
      obtain ⟨next, continued, nextLined, _⟩ := lined.queueUp checked serves bound
      refine ⟨next, ?_, nextLined⟩
      rw [queueAll, List.range_succ, List.flatMap_append, List.flatMap_singleton,
        Transition.run_append]
      exact Option.bind_eq_some_iff.mpr ⟨state, ran, continued⟩

end Choice

/-! ## The first ID -/

/-- The ID of a first poll at the reading 1. -/
def firstId (machine : ServerLayout.Ty) : ServerId :=
  (BasicSnowflakeGenerator.new machine :
    BasicSnowflakeGenerator ServerLayout).state.rolloverToTimestamp 1#_

theorem pollId_new (machine : ServerLayout.Ty) :
    (BasicSnowflakeGenerator.new machine : BasicSnowflakeGenerator ServerLayout).pollId 1#_ =
      (⟨firstId machine⟩, .ready (firstId machine)) := by
  have start : (BasicSnowflakeGenerator.new machine :
      BasicSnowflakeGenerator ServerLayout).state.timestamp = 0#_ := by
    apply BitVec.eq_of_toNat_eq
    rw [BasicSnowflakeGenerator.new, BasicSnowflakeGenerator.fromComponents,
      (SnowflakeId.fields_fromComponents _ _ _).1, BitVec.toNat_zero, Nat.zero_mod]
  have later : (BasicSnowflakeGenerator.new machine :
      BasicSnowflakeGenerator ServerLayout).state.timestamp < 1#_ := by
    rw [start]
    decide
  have polls := BasicSnowflakeGenerator.polls_pollId
    (BasicSnowflakeGenerator.new machine : BasicSnowflakeGenerator ServerLayout) 1#_
  generalize (BasicSnowflakeGenerator.new machine :
    BasicSnowflakeGenerator ServerLayout).pollId 1#_ = outcome at polls
  cases polls with
  | rollover _ => rfl
  | increment same _ | exhausted same _ => exact absurd same (BitVec.ne_of_lt later).symm
  | behind earlier => exact absurd later (BitVec.not_lt.mpr (BitVec.le_of_lt earlier))

section First

variable {config : ServerConfig}

/-- The request is handed over, and its worker starts, takes it and answers it. -/
def serveFirst (number : Nat) : List Label :=
  List.replicate 2 (.call number) ++ List.replicate 5 (.work number 1#_)

theorem sent_serveFirst (checked : config.Checked) (serves : config.Serves) {number : Nat}
    (known : number < config.numWorkers) {state : State} (alive : state.aborted = false)
    (fresh : state.workers number = (initial config).workers number)
    (at_phase : (state.calls number).phase = .feeding 0 (.sending number 1))
    (channels : (state.calls number).channels = 1) :
    ∃ next, Transition.run (step config) state (serveFirst number) = some next ∧
      (next.workers number).sent = [toLeBytes (firstId (config.machineId number))] := by
  have bytes : 8 ≤ config.chunkBytes := by
    have product := checked.chunkBytes_eq
    have chunks := serves.chunks
    simp only [SNOWFLAKE_ID_SIZE] at product
    omega
  -- one ID fills the buffer, or is the rest of it
  by_cases single : 8 = config.chunkBytes
  · simp [serveFirst, Transition.run, step, taskStep, callStep, feedStep, workStep, jobStep, alive,
      at_phase, fresh, initial, Worker.isDown, Worker.HasRoom, inboxCapacity, State.setCall,
      State.setWorker, State.mapChannel, Call.mapChannel, known, serves.fits, channels,
      ChunkChannel.hold, pollId_new, SNOWFLAKE_ID_SIZE, single, State.isClosed, Call.channel?, State.queued, chunkCapacity]
  · simp [serveFirst, Transition.run, step, taskStep, callStep, feedStep, workStep, jobStep, alive,
      at_phase, fresh, initial, Worker.isDown, Worker.HasRoom, inboxCapacity, State.setCall,
      State.setWorker, State.mapChannel, Call.mapChannel, known, serves.fits, channels,
      ChunkChannel.hold, pollId_new, SNOWFLAKE_ID_SIZE, bytes, single, State.isClosed, Call.channel?, State.queued, chunkCapacity,
      finishJob]
    exact List.take_left' (length_toLeBytes _)

theorem one_le_maxTimestamp : (1#_ : ServerLayout.Ty) ≤ ServerLayout.maxTimestamp := by
  decide +kernel

/-- Every worker emits its first ID in some run. -/
theorem emits_firstId (checked : config.Checked) (serves : config.Serves) {worker : Nat}
    (known : worker < config.numWorkers) :
    ∃ labels state, (∀ label ∈ labels, Readable label) ∧
      Transition.run (step config) (initial config) labels = some state ∧
      firstId (config.machineId worker) ∈ state.emitted config := by
  obtain ⟨before, ran, lined⟩ := lined_queueAll checked serves (Nat.le_of_lt known)
  obtain ⟨middle, queued, nextLined, at_phase, channels⟩ := lined.queueUp checked serves known
  obtain ⟨state, served, sent⟩ := sent_serveFirst checked serves known
    nextLined.alive (congrFun nextLined.workers worker) at_phase channels
  refine ⟨queueAll worker ++ (queueUp worker ++ serveFirst worker), state, ?_, ?_, ?_⟩
  · intro label member
    simp only [queueAll, queueUp, serveFirst, List.mem_append, List.mem_flatMap, List.mem_cons,
      List.mem_replicate] at member
    rcases member with ⟨_, _, rfl | ⟨_, rfl⟩⟩ | (rfl | ⟨_, rfl⟩) | (⟨_, rfl⟩ | ⟨_, rfl⟩)
    · trivial
    · trivial
    · trivial
    · trivial
    · trivial
    · exact one_le_maxTimestamp
  · rw [Transition.run_append, ran, Option.bind_some, Transition.run_append, queued,
      Option.bind_some, served]
  · rw [State.emitted, List.mem_flatMap]
    refine ⟨worker, List.mem_range.mpr known, ?_⟩
    rw [Worker.emitted, sent, List.flatMap_singleton]
    have packed := unpack_pack [firstId (config.machineId worker)]
    rw [pack, List.flatMap_singleton] at packed
    rw [packed]
    exact List.mem_singleton_self _

end First

/-- Only a server that serves requests emits anything. -/
theorem serves_of_emitted {config : ServerConfig} {labels : List Label} {state : State}
    (ran : Transition.run (step config) (initial config) labels = some state) {id : ServerId}
    (emitted : id ∈ state.emitted config) : config.Serves := by
  obtain ⟨worker, _, member⟩ := List.mem_flatMap.mp emitted
  obtain ⟨chunk, sent, _⟩ := List.mem_flatMap.mp member
  exact serves_of_sent ran (List.ne_nil_of_mem sent)

end Ferroid.Server
