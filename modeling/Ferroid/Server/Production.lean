import Ferroid.Library.Transition
import Ferroid.Server.CallSteps

/-!
Contract: what a worker writes into its chunks, over every run of the server.

Owns the invariant of one worker's buffer, log and generator: the chunks it has
sent and the bytes it has not sent yet pack increasing IDs of its own machine. It
holds of every run whose clock readings fit the timestamp field, whatever calls,
clients and shutdown do.

Does not own how many IDs a chunk holds or whom it reaches.
-/

namespace Ferroid.Server

open Ferroid.Id
open Ferroid.Generator
open Ferroid.Library

/-! ## Stock -/

/-- Chunks sent and bytes not sent yet, with the generator that made their IDs. -/
structure Stock (machine : ServerLayout.Ty) (sent : List IdChunk) (bytes : IdChunk)
    (generator : BasicSnowflakeGenerator ServerLayout) : Prop where
  serves : generator.Serves machine
  packed : ∃ pending, bytes = pack pending ∧
    (sent.flatMap unpack ++ pending).Pairwise (· < ·) ∧
    ∀ id ∈ sent.flatMap unpack ++ pending, BasicSnowflakeGenerator.Serves machine ⟨id⟩ ∧
      (id = generator.state ∨ id < generator.state)

namespace Stock

variable {machine : ServerLayout.Ty} {sent : List IdChunk} {bytes : IdChunk}
  {generator : BasicSnowflakeGenerator ServerLayout}

theorem empty (serves : generator.Serves machine) : Stock machine [] [] generator :=
  ⟨serves, [], rfl, by simp, by simp⟩

/-- The bytes are thrown away. -/
theorem clear (stock : Stock machine sent bytes generator) : Stock machine sent [] generator := by
  obtain ⟨serves, pending, _, increasing, ids⟩ := stock
  refine ⟨serves, [], rfl, ?_, ?_⟩
  · rw [List.append_nil]
    exact (List.pairwise_append.mp increasing).1
  · intro id member
    rw [List.append_nil] at member
    exact ids id (List.mem_append_left pending member)

/-- The bytes are sent as a chunk. -/
theorem send (stock : Stock machine sent bytes generator) :
    Stock machine (sent ++ [bytes]) [] generator := by
  obtain ⟨serves, pending, rfl, increasing, ids⟩ := stock
  have moved : (sent ++ [pack pending]).flatMap unpack ++ [] =
      sent.flatMap unpack ++ pending := by
    rw [List.append_nil, List.flatMap_append, List.flatMap_singleton, unpack_pack]
  refine ⟨serves, [], rfl, ?_, ?_⟩
  · rwa [moved]
  · rwa [moved]

/-- What is not newer than the state is older than the next ID. -/
private theorem lt_ready (serves : generator.Serves machine) {now : ServerLayout.Ty}
    (fits : now ≤ ServerLayout.maxTimestamp) {old id : ServerId}
    (ready : (generator.pollId now).2 = .ready id)
    (bounded : old = generator.state ∨ old < generator.state) : old < id := by
  have newer := (BasicSnowflakeGenerator.polls_pollId generator now).lt fits serves.1 ready
  rcases bounded with rfl | older
  · exact newer
  · exact Trans.trans older newer

/-- The generator is polled and the outcome is not used. -/
theorem poll (stock : Stock machine sent bytes generator) {now : ServerLayout.Ty}
    (fits : now ≤ ServerLayout.maxTimestamp) :
    Stock machine sent bytes (generator.pollId now).1 := by
  obtain ⟨serves, pending, packs, increasing, ids⟩ := stock
  have polls := BasicSnowflakeGenerator.polls_pollId generator now
  refine ⟨serves.pollId now, pending, packs, increasing, fun id member => ⟨(ids id member).1, ?_⟩⟩
  cases outcome : (generator.pollId now).2 with
  | ready new =>
      rw [polls.stored outcome]
      exact Or.inr (lt_ready serves fits outcome (ids id member).2)
  | pending yieldFor =>
      rw [polls.unchanged ⟨yieldFor, outcome⟩]
      exact (ids id member).2

/-- A new ID is written behind the bytes. -/
theorem write (stock : Stock machine sent bytes generator) {now : ServerLayout.Ty}
    (fits : now ≤ ServerLayout.maxTimestamp) {id : ServerId}
    (ready : (generator.pollId now).2 = .ready id) :
    Stock machine sent (bytes ++ toLeBytes id) (generator.pollId now).1 := by
  obtain ⟨serves, pending, rfl, increasing, ids⟩ := stock
  have stored := (BasicSnowflakeGenerator.polls_pollId generator now).stored ready
  have after := serves.pollId now
  refine ⟨after, pending ++ [id], ?_, ?_, ?_⟩
  · rw [pack_append]
    simp [pack]
  · rw [← List.append_assoc, List.pairwise_append]
    refine ⟨increasing, List.pairwise_singleton _ _, fun old member new isNew => ?_⟩
    rw [List.mem_singleton.mp isNew]
    exact lt_ready serves fits ready (ids old member).2
  · intro old member
    rw [← List.append_assoc] at member
    rw [stored]
    rcases List.mem_append.mp member with earlier | last
    · exact ⟨(ids old earlier).1, Or.inr (lt_ready serves fits ready (ids old earlier).2)⟩
    · rw [List.mem_singleton.mp last]
      exact ⟨stored ▸ after, Or.inl rfl⟩

end Stock

/-! ## One worker -/

/-- The bytes a worker has written and not sent. -/
def Worker.unsent (worker : Worker) : IdChunk :=
  match worker.phase with
  | .handling job =>
      match job.point with
      | .sendingRest bytes => bytes
      | _ => worker.buff.take worker.buffPos
  | _ => worker.buff.take worker.buffPos

/-- What the phase says about the buffer: a chunk that is being sent is the whole
of it. -/
def BufferOk (config : ServerConfig) (worker : Worker) : Prop :=
  match worker.phase with
  | .starting => worker.buffPos = 0
  | .waiting => worker.buff.length = config.chunkBytes
  | .handling job => worker.buff.length = config.chunkBytes ∧
      match job.point with
      | .generating => True
      | .checking => worker.buffPos = config.chunkBytes
      | .sendingFull bytes => bytes = worker.buff ∧ worker.buffPos = config.chunkBytes
      | .sendingRest _ => worker.buffPos = 0
  | .stopping | .stopped | .panicked => True

/-- The invariant of a worker. -/
structure Produces (config : ServerConfig) (machine : ServerLayout.Ty) (worker : Worker) :
    Prop where
  bufferOk : BufferOk config worker
  stock : Stock machine worker.sent worker.unsent worker.generator

section Worker

variable {config : ServerConfig} {state : State} {machine now : ServerLayout.Ty}
  {worker next : Worker}

/-- The bytes written grow by the ID. -/
theorem take_written (buff : List UInt8) (buffPos : Nat) (id : ServerId)
    (fits : buffPos + SNOWFLAKE_ID_SIZE ≤ buff.length) :
    (buff.take buffPos ++ toLeBytes id ++ buff.drop (buffPos + SNOWFLAKE_ID_SIZE)).take
      (buffPos + SNOWFLAKE_ID_SIZE) = buff.take buffPos ++ toLeBytes id := by
  apply List.take_left'
  rw [List.length_append, List.length_take, length_toLeBytes]
  omega

theorem WorkMoves.produces (moves : WorkMoves config state now worker next)
    (fits : now ≤ ServerLayout.maxTimestamp) (produces : Produces config machine worker) :
    Produces config machine next := by
  obtain ⟨bufferOk, stock⟩ := produces
  cases moves with
  | start at_phase _ =>
      simp only [BufferOk, at_phase] at bufferOk
      simp only [Worker.unsent, at_phase, bufferOk, List.take_zero] at stock
      exact ⟨List.length_replicate .., by simpa [Worker.unsent] using stock⟩
  | takeShutdown inbox at_phase _ =>
      simp only [Worker.unsent, at_phase] at stock
      exact ⟨trivial, stock⟩
  | pause job at_phase generating _ _ =>
      constructor
      · simpa only [BufferOk, at_phase] using bufferOk
      · have polled := stock.poll fits
        simpa only [Worker.unsent, at_phase] using polled
  | write job id at_phase generating _ ready inBounds =>
      simp only [BufferOk, at_phase] at bufferOk
      simp only [Worker.unsent, at_phase, generating] at stock
      have written := stock.write fits ready
      rw [← take_written _ _ id inBounds] at written
      have length : (worker.buff.take worker.buffPos ++ toLeBytes id ++
          worker.buff.drop (worker.buffPos + SNOWFLAKE_ID_SIZE)).length = config.chunkBytes := by
        simp only [List.length_append, List.length_take, length_toLeBytes, List.length_drop]
        omega
      by_cases isFull : worker.buffPos + SNOWFLAKE_ID_SIZE = config.chunkBytes
      · rw [if_pos isFull]
        exact ⟨⟨length, isFull⟩, written⟩
      · rw [if_neg isFull]
        exact ⟨⟨length, trivial⟩, written⟩
  | rest job at_phase generating _ _ _ =>
      simp only [BufferOk, at_phase] at bufferOk
      simp only [Worker.unsent, at_phase, generating] at stock
      exact ⟨⟨bufferOk.1, rfl⟩, stock⟩
  | full job at_phase checking _ =>
      simp only [BufferOk, at_phase, checking] at bufferOk
      simp only [Worker.unsent, at_phase, checking] at stock
      exact ⟨⟨bufferOk.1, rfl, bufferOk.2⟩, stock⟩

/-- Where the bytes of a request that is given up stay. -/
theorem Produces.finish {job : Job} (produces : Produces config machine worker)
    (at_phase : worker.phase = .handling job) :
    Produces config machine { worker with phase := .waiting } := by
  obtain ⟨bufferOk, stock⟩ := produces
  simp only [BufferOk, at_phase] at bufferOk
  refine ⟨bufferOk.1, ?_⟩
  have place := bufferOk.2
  simp only [Worker.unsent, at_phase] at stock ⊢
  split at stock
  · next bytes sending =>
      simp only [sending] at place
      rw [place, List.take_zero]
      exact stock.clear
  · exact stock

/-- The chunk that a worker sends is what it has written. -/
theorem Produces.unsent_eq {job : Job} {bytes : IdChunk} (produces : Produces config machine worker)
    (at_phase : worker.phase = .handling job)
    (sending : job.point = .sendingFull bytes ∨ job.point = .sendingRest bytes) :
    worker.unsent = bytes := by
  have bufferOk := produces.bufferOk
  simp only [BufferOk, at_phase] at bufferOk
  rcases sending with sending | sending
  · simp only [sending] at bufferOk
    simp only [Worker.unsent, at_phase, sending]
    rw [bufferOk.2.2, ← bufferOk.1, List.take_length, bufferOk.2.1]
  · simp only [Worker.unsent, at_phase, sending]

end Worker

/-! ## Whole runs -/

/-- The clock reading of a step fits the timestamp field. -/
def Readable : Label → Prop
  | .work _ now => now ≤ ServerLayout.maxTimestamp
  | _ => True

instance : DecidablePred Readable
  | .work _ now => inferInstanceAs (Decidable (now ≤ ServerLayout.maxTimestamp))
  | .arrive _ | .call _ | .receive _ | .disconnect _ | .abort _ | .manage _ => isTrue trivial

/-- The machine field of a worker's generator. -/
def ServerConfig.workerMachine (config : ServerConfig) (worker : Nat) : ServerLayout.Ty :=
  (BasicSnowflakeGenerator.new (config.machineId worker) :
    BasicSnowflakeGenerator ServerLayout).state.machineId

/-- The invariant of all workers. -/
def Producing (config : ServerConfig) (state : State) : Prop :=
  ∀ index, Produces config (config.workerMachine index) (state.workers index)

section Run

variable {config : ServerConfig} {state next : State}

theorem producing_initial (config : ServerConfig) : Producing config (initial config) := by
  intro index
  exact ⟨rfl, .empty ⟨SnowflakeId.isValid_fromComponents _ _ _, rfl⟩⟩

/-- One worker changes. -/
theorem Producing.update (producing : Producing config state) {index : Nat} {worker : Worker}
    (workers : next.workers = Function.update state.workers index worker)
    (produces : Produces config (config.workerMachine index) worker) : Producing config next := by
  unfold Producing
  rw [workers, Function.forall_update_iff state.workers
    fun other worker => Produces config (config.workerMachine other) worker]
  exact ⟨produces, fun other _ => producing other⟩

theorem Producing.step {label : Label} (producing : Producing config state)
    (readable : Readable label) (stepped : Server.step config state label = some next) :
    Producing config next := by
  cases moves_of_step stepped with
  | arrive | call | receive | disconnect | abort | beginShutdown | drain | cancel | skip
  | finishShutdown => exact producing
  | reserve index remaining worker | send index remaining worker =>
      exact producing.update rfl ⟨(producing worker).bufferOk, (producing worker).stock⟩
  | work index now after known moves =>
      exact producing.update rfl (moves.produces readable (producing index))
  | allocationPanic index now known at_phase large =>
      have stock := (producing index).stock
      simp only [Worker.unsent, at_phase] at stock
      have gone : Produces config (config.workerMachine index)
          { state.workers index with inbox := [], phase := .panicked } := ⟨trivial, stock⟩
      rw [dropInbox_eq]
      exact producing.update rfl gone
  | takeStream index now request inbox known at_phase waiting =>
      obtain ⟨bufferOk, stock⟩ := producing index
      simp only [BufferOk, at_phase] at bufferOk
      simp only [Worker.unsent, at_phase] at stock
      exact producing.update rfl ⟨⟨bufferOk, trivial⟩, stock⟩
  | indexPanic index now job id known at_phase generating more ready beyond =>
      have stock := (producing index).stock.poll readable
      simp only [Worker.unsent, at_phase, generating] at stock
      have gone : Produces config (config.workerMachine index)
          { state.workers index with
            generator := ((state.workers index).generator.pollId now).1
            inbox := []
            phase := .panicked } := ⟨trivial, stock⟩
      rw [dropInbox_eq]
      exact producing.update rfl gone
  | finish index now job known at_phase finishes =>
      exact producing.update rfl ((producing index).finish at_phase)
  | pushFull index now job bytes known at_phase sending alive room =>
      have produces := producing index
      have sent := produces.stock.send
      have bufferOk := produces.bufferOk
      simp only [BufferOk, at_phase] at bufferOk
      rw [produces.unsent_eq at_phase (Or.inl sending)] at sent
      exact producing.update rfl ⟨⟨bufferOk.1, trivial⟩, sent⟩
  | pushRest index now job bytes known at_phase sending alive room =>
      have produces := producing index
      have sent := produces.stock.send
      have bufferOk := produces.bufferOk
      simp only [BufferOk, at_phase, sending] at bufferOk
      rw [produces.unsent_eq at_phase (Or.inr sending)] at sent
      refine producing.update rfl ⟨bufferOk.1, ?_⟩
      simp only [Worker.unsent, bufferOk.2, List.take_zero]
      exact sent
  | stop index now known at_phase =>
      have stock := (producing index).stock
      simp only [Worker.unsent, at_phase] at stock
      have gone : Produces config (config.workerMachine index)
          { state.workers index with inbox := [], phase := .stopped } := ⟨trivial, stock⟩
      rw [dropInbox_eq]
      exact producing.update rfl gone
  | notify timeout index at_phase known up room =>
      exact producing.update rfl ⟨(producing index).bufferOk, (producing index).stock⟩

/-- A readable run keeps the invariant. -/
theorem Producing.run {labels : List Label} (readable : ∀ label ∈ labels, Readable label)
    (ran : Transition.run (Server.step config) (initial config) labels = some next) :
    Producing config next :=
  Transition.run_invariant_labels (Producing config) Readable
    (fun _ _ _ producing fits stepped => producing.step fits stepped)
    (producing_initial config) readable ran

/-! ## Emitted IDs -/

/-- The IDs in the chunks a worker has sent. -/
def Worker.emitted (worker : Worker) : List ServerId := worker.sent.flatMap unpack

/-- The IDs in the chunks that all workers have sent. -/
def State.emitted (config : ServerConfig) (state : State) : List ServerId :=
  (List.range config.numWorkers).flatMap fun index => (state.workers index).emitted

theorem Produces.increasing {machine : ServerLayout.Ty} {worker : Worker}
    (produces : Produces config machine worker) : worker.emitted.Pairwise (· < ·) := by
  obtain ⟨_, pending, _, increasing, _⟩ := produces.stock
  exact (List.pairwise_append.mp increasing).1

theorem Produces.machineId {machine : ServerLayout.Ty} {worker : Worker}
    (produces : Produces config machine worker) :
    ∀ id ∈ worker.emitted, id.machineId = machine := by
  obtain ⟨_, pending, _, _, ids⟩ := produces.stock
  intro id member
  exact (ids id (List.mem_append_left pending member)).1.2

theorem ServerConfig.toNat_workerMachine (config : ServerConfig) (worker : Nat) :
    (config.workerMachine worker).toNat = config.machineField worker := by
  rw [workerMachine, BasicSnowflakeGenerator.new, BasicSnowflakeGenerator.fromComponents,
    (SnowflakeId.fields_fromComponents _ _ _).2.1, config.toNat_machineId_mod]

/-- No ID is emitted twice, by one worker or by two. -/
theorem Producing.nodup (producing : Producing config state) (checked : config.Checked) :
    (state.emitted config).Nodup := by
  rw [State.emitted, List.nodup_flatMap]
  refine ⟨fun index _ => ?_, ?_⟩
  · exact (producing index).increasing.imp SnowflakeId.ne_of_lt
  · refine List.Pairwise.imp_of_mem ?_ List.nodup_range
    intro left right leftMember rightMember different id inLeft inRight
    refine different (checked.machineField_injective (List.mem_range.mp leftMember)
      (List.mem_range.mp rightMember) ?_)
    rw [← config.toNat_workerMachine, ← config.toNat_workerMachine,
      ← (producing left).machineId id inLeft, ← (producing right).machineId id inRight]

end Run

end Ferroid.Server
