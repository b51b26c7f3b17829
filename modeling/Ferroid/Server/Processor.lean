import Ferroid.Server.Production

/-!
Contract: `handle_stream_request` as one call.

Owns the function run to its end, over the clock readings of its polls and the
moment at which the receiver of its chunk channel goes away, that what a worker
of the server does with one request is such a call, and when a call leaves its
worker ready for the next request.

Does not own the interleaving with other tasks (`Server.Step`).
-/

namespace Ferroid.Server

open Ferroid.Id
open Ferroid.Generator
open Ferroid.Library
open Ferroid.Library.Transition

/-! ## The call -/

/-- What a worker keeps from one request to the next, and the chunks it has sent. -/
structure Processor where
  generator : BasicSnowflakeGenerator ServerLayout
  chunkBuf : List UInt8
  buffPos : Nat
  sent : List IdChunk

/-- How far a call gets; `running` when it is still polling after the last reading. -/
inductive HandleOutcome where
  | returned (self : Processor)
  | panicked
  | running

namespace Processor

/-- The ID goes into the buffer at the write position. -/
def write (self : Processor) (generator : BasicSnowflakeGenerator ServerLayout) (id : ServerId) :
    Processor :=
  { self with
    generator := generator
    chunkBuf := self.chunkBuf.take self.buffPos ++ toLeBytes id ++
      self.chunkBuf.drop (self.buffPos + SNOWFLAKE_ID_SIZE)
    buffPos := self.buffPos + SNOWFLAKE_ID_SIZE }

def push (self : Processor) (bytes : IdChunk) : Processor :=
  { self with buffPos := 0, sent := self.sent ++ [bytes] }

/-- The final flush. Unlike the loop, it resets the position before it sends. -/
def flush (self : Processor) (alive : Nat) : Processor :=
  if 0 < self.buffPos ∧ 0 < alive then
    if 1 < alive then self.push (self.chunkBuf.take self.buffPos) else { self with buffPos := 0 }
  else
    self

/-- The loop and the flush. The receiver is open for the next `alive` operations on
`chunk_tx`, each an `is_closed` or a `send`, and closed for those after them. -/
def handleLoop (chunkBytes chunkSize : Nat) :
    List ServerLayout.Ty → Nat → Nat → Processor → HandleOutcome
  | [], generated, alive, self =>
      if generated < chunkSize then .running else .returned (self.flush alive)
  | now :: readings, generated, alive, self =>
      if generated < chunkSize then
        match self.generator.pollId now with
        | (generator, .ready id) =>
            if self.buffPos + SNOWFLAKE_ID_SIZE ≤ self.chunkBuf.length then
              let self := self.write generator id
              if self.buffPos = chunkBytes then
                if alive < 2 then
                  .returned self
                else
                  handleLoop chunkBytes chunkSize readings (generated + 1) (alive - 2)
                    (self.push self.chunkBuf)
              else
                handleLoop chunkBytes chunkSize readings (generated + 1) alive self
            else
              .panicked
        | (generator, .pending _) =>
            handleLoop chunkBytes chunkSize readings generated alive
              { self with generator := generator }
      else
        .returned (self.flush alive)

def handleStreamRequest (chunkBytes chunkSize : Nat) (readings : List ServerLayout.Ty)
    (alive : Nat) (self : Processor) : HandleOutcome :=
  handleLoop chunkBytes chunkSize readings 0 alive self

/-! ## One iteration -/

section Iteration

variable {chunkBytes chunkSize generated alive : Nat} {readings : List ServerLayout.Ty}
  {now : ServerLayout.Ty} (self : Processor)

theorem handleLoop_done (all : ¬ generated < chunkSize) :
    handleLoop chunkBytes chunkSize readings generated alive self =
      .returned (self.flush alive) := by
  cases readings with
  | nil => rw [handleLoop, if_neg all]
  | cons now rest => rw [handleLoop, if_neg all]

theorem handleLoop_pending (more : generated < chunkSize)
    (pending : (self.generator.pollId now).2.IsPending) :
    handleLoop chunkBytes chunkSize (now :: readings) generated alive self =
      handleLoop chunkBytes chunkSize readings generated alive
        { self with generator := (self.generator.pollId now).1 } := by
  obtain ⟨yieldFor, outcome⟩ := pending
  rw [handleLoop, if_pos more, ← Prod.eta (self.generator.pollId now), outcome]

theorem handleLoop_ready (more : generated < chunkSize) {id : ServerId}
    (ready : (self.generator.pollId now).2 = .ready id)
    (fits : self.buffPos + SNOWFLAKE_ID_SIZE ≤ self.chunkBuf.length) :
    handleLoop chunkBytes chunkSize (now :: readings) generated alive self =
      let written := self.write (self.generator.pollId now).1 id
      if self.buffPos + SNOWFLAKE_ID_SIZE = chunkBytes then
        if alive < 2 then .returned written
        else handleLoop chunkBytes chunkSize readings (generated + 1) (alive - 2)
          (written.push written.chunkBuf)
      else handleLoop chunkBytes chunkSize readings (generated + 1) alive written := by
  rw [handleLoop, if_pos more, ← Prod.eta (self.generator.pollId now), ready]
  simp only [if_pos fits]
  rfl

theorem handleLoop_beyond (more : generated < chunkSize) {id : ServerId}
    (ready : (self.generator.pollId now).2 = .ready id)
    (beyond : self.chunkBuf.length < self.buffPos + SNOWFLAKE_ID_SIZE) :
    handleLoop chunkBytes chunkSize (now :: readings) generated alive self = .panicked := by
  rw [handleLoop, if_pos more, ← Prod.eta (self.generator.pollId now), ready]
  simp only [if_neg (Nat.not_le.mpr beyond)]

end Iteration

/-! ## The server's workers make such calls -/

/-- The rest of a call that stands at a point of the server's step function. -/
def resume (chunkBytes : Nat) (job : Job) (readings : List ServerLayout.Ty) (alive : Nat)
    (self : Processor) : HandleOutcome :=
  match job.point with
  | .generating =>
      handleLoop chunkBytes job.request.chunkSize readings job.generated alive self
  | .checking =>
      if alive < 2 then .returned self
      else handleLoop chunkBytes job.request.chunkSize readings job.generated (alive - 2)
        (self.push self.chunkBuf)
  | .sendingFull bytes =>
      if alive < 1 then .returned self
      else handleLoop chunkBytes job.request.chunkSize readings job.generated (alive - 1)
        (self.push bytes)
  | .sendingRest bytes =>
      .returned (if alive < 1 then self else { self with sent := self.sent ++ [bytes] })

def ofWorker (worker : Worker) : Processor :=
  ⟨worker.generator, worker.buff, worker.buffPos, worker.sent⟩

/-- The worker goes on with its call, or has ended it as the call ends. -/
inductive Continues (chunkBytes : Nat) (job : Job) (before after : Worker) : Prop where
  | handling (job' : Job) (at_phase : after.phase = .handling job')
      (same : job'.request = job.request) (readings : List ServerLayout.Ty) (operations : Nat)
      (agrees : ∀ rest alive,
        resume chunkBytes job (readings ++ rest) (operations + alive) (ofWorker before) =
          resume chunkBytes job' rest alive (ofWorker after))
  | waiting (at_phase : after.phase = .waiting) (readings : List ServerLayout.Ty)
      (operations : Nat)
      (agrees : resume chunkBytes job readings operations (ofWorker before) =
        .returned (ofWorker after))
  | panicked (at_phase : after.phase = .panicked) (readings : List ServerLayout.Ty)
      (operations : Nat)
      (agrees : resume chunkBytes job readings operations (ofWorker before) = .panicked)

theorem Continues.trans {chunkBytes : Nat} {job job' : Job} {before between after : Worker}
    {readings : List ServerLayout.Ty} {operations : Nat}
    (agrees : ∀ rest alive,
      resume chunkBytes job (readings ++ rest) (operations + alive) (ofWorker before) =
        resume chunkBytes job' rest alive (ofWorker between))
    (same : job'.request = job.request)
    (continues : Continues chunkBytes job' between after) :
    Continues chunkBytes job before after := by
  cases continues with
  | handling last at_phase sameLast later laterOperations laterAgrees =>
      refine .handling last at_phase (sameLast.trans same) (readings ++ later)
        (operations + laterOperations) ?_
      intro rest alive
      rw [List.append_assoc, Nat.add_assoc, agrees, laterAgrees]
  | waiting at_phase later laterOperations laterAgrees =>
      exact .waiting at_phase (readings ++ later) (operations + laterOperations)
        ((agrees later laterOperations).trans laterAgrees)
  | panicked at_phase later laterOperations laterAgrees =>
      exact .panicked at_phase (readings ++ later) (operations + laterOperations)
        ((agrees later laterOperations).trans laterAgrees)

end Processor

section Refinement

open Processor

variable {config : ServerConfig} {state next : State} {index : Nat} {now : ServerLayout.Ty}
  {job : Job}

/-- A step that touches no channel is part of the call. -/
theorem WorkMoves.continues {worker after : Worker}
    (moves : WorkMoves config state now worker after) (at_phase : worker.phase = .handling job) :
    Continues config.chunkBytes job worker after := by
  cases moves with
  | start other => rw [at_phase] at other; cases other
  | takeShutdown _ other => rw [at_phase] at other; cases other
  | pause job' same generating more pending =>
      cases at_phase.symm.trans same
      refine .handling job at_phase rfl [now] 0 ?_
      intro rest alive
      rw [resume, generating, Nat.zero_add, resume, generating]
      exact handleLoop_pending (ofWorker worker) more pending
  | write job' id same generating more ready fits =>
      cases at_phase.symm.trans same
      refine .handling _ rfl rfl [now] 0 ?_
      intro rest alive
      rw [resume, generating, Nat.zero_add]
      refine (handleLoop_ready (ofWorker worker) more ready fits).trans ?_
      by_cases full : worker.buffPos + SNOWFLAKE_ID_SIZE = config.chunkBytes
      · refine (if_pos full).trans ?_
        simp only [resume, if_pos full]
        rfl
      · refine (if_neg full).trans ?_
        simp only [resume, if_neg full]
        rfl
  | rest job' same generating all some open_ =>
      cases at_phase.symm.trans same
      refine .handling _ rfl rfl [] 1 ?_
      intro rest alive
      rw [resume, generating]
      refine (handleLoop_done (ofWorker worker) all).trans ?_
      have flushes : 0 < (ofWorker worker).buffPos ∧ 0 < 1 + alive := ⟨some, by omega⟩
      rw [flush, if_pos flushes]
      by_cases last : alive < 1
      · simp only [resume, if_pos last, if_neg (show ¬ 1 < 1 + alive by omega)]
        rfl
      · simp only [resume, if_neg last, if_pos (show 1 < 1 + alive by omega)]
        rfl
  | full job' same checking open_ =>
      cases at_phase.symm.trans same
      refine .handling _ rfl rfl [] 1 ?_
      intro rest alive
      rw [resume, checking]
      by_cases last : alive < 1
      · simp only [resume, if_pos last, if_pos (show 1 + alive < 2 by omega)]
        rfl
      · simp only [resume, if_neg last, if_neg (show ¬ 1 + alive < 2 by omega),
          show 1 + alive - 2 = alive - 1 by omega]
        rfl

theorem State.workers_setWorker_self (state : State) (index : Nat) (worker : Worker) :
    (state.setWorker index worker).workers index = worker := by
  rw [State.setWorker]
  exact Function.update_self ..

theorem State.workers_setWorker_of_ne (state : State) (worker : Worker) {index other : Nat}
    (different : index ≠ other) :
    (state.setWorker other worker).workers index = state.workers index := by
  rw [State.setWorker]
  exact Function.update_of_ne different ..

/-- A step of the worker is part of its call, and the call ends where it leaves the
request. -/
theorem Moves.continues (moves : Moves config state (.work index now) next)
    (at_phase : (state.workers index).phase = .handling job) :
    Continues config.chunkBytes job (state.workers index) (next.workers index) := by
  cases moves with
  | work _ _ after _ workMoves =>
      rw [State.workers_setWorker_self]
      exact workMoves.continues at_phase
  | allocationPanic _ _ _ other => rw [at_phase] at other; cases other
  | takeStream _ _ _ _ _ other => rw [at_phase] at other; cases other
  | stop _ _ _ other => rw [at_phase] at other; cases other
  | indexPanic _ _ job' id _ same generating more ready beyond =>
      cases at_phase.symm.trans same
      rw [State.workers_setWorker_self]
      refine .panicked rfl [now] 0 ?_
      rw [resume, generating]
      exact handleLoop_beyond (ofWorker (state.workers index)) more ready beyond
  | finish _ _ job' _ same finishes =>
      cases at_phase.symm.trans same
      rw [finishJob, State.workers_setWorker_self]
      -- The operation that finds the receiver gone is the one after the last successful one.
      refine .waiting rfl [] 0 ?_
      cases finishes with
      | exhausted generating all nothing =>
          rw [resume, generating]
          refine (handleLoop_done (ofWorker (state.workers index)) all).trans ?_
          rw [flush, if_neg fun flushes => absurd flushes.2 (Nat.lt_irrefl 0)]
          rfl
      | closed sending closed =>
          cases point : job.point with
          | generating => exact absurd point sending
          | checking => simp only [resume, point]; rfl
          | sendingFull bytes => simp only [resume, point]; rfl
          | sendingRest bytes => simp only [resume, point]; rfl
  | pushFull _ _ job' bytes _ same sending =>
      cases at_phase.symm.trans same
      rw [State.workers_setWorker_self]
      refine .handling _ rfl rfl [] 1 ?_
      intro rest alive
      simp only [resume, sending, if_neg (show ¬ 1 + alive < 1 by omega),
        show 1 + alive - 1 = alive by omega]
      rfl
  | pushRest _ _ job' bytes _ same sending =>
      cases at_phase.symm.trans same
      rw [finishJob, State.workers_setWorker_self]
      refine .waiting rfl [] 1 ?_
      simp only [resume, sending]
      rfl

/-- A change to some worker's inbox leaves every worker's call alone. -/
theorem keepsCall_setWorker (state : State) {other : Nat} {worker : Worker}
    (phase : worker.phase = (state.workers other).phase)
    (call : ofWorker worker = ofWorker (state.workers other)) (index : Nat) :
    ((state.setWorker other worker).workers index).phase = (state.workers index).phase ∧
      ofWorker ((state.setWorker other worker).workers index) =
        ofWorker (state.workers index) := by
  by_cases same : index = other
  · subst same
    rw [State.workers_setWorker_self]
    exact ⟨phase, call⟩
  · rw [State.workers_setWorker_of_ne _ _ same]
    exact ⟨rfl, rfl⟩

/-- The other tasks leave a worker's call alone; they reach its inbox only. -/
theorem Moves.keepsCall {label : Label} (moves : Moves config state label next)
    (other : ∀ now, label ≠ .work index now) :
    (next.workers index).phase = (state.workers index).phase ∧
      ofWorker (next.workers index) = ofWorker (state.workers index) := by
  cases moves with
  | reserve | send =>
      apply keepsCall_setWorker (state.setCall _ _)
      · rfl
      · rfl
  | notify =>
      apply keepsCall_setWorker state
      · rfl
      · rfl
  | work worker now | takeStream worker now | pushFull worker now =>
      have different : index ≠ worker := fun same => other now (by rw [same])
      rw [State.workers_setWorker_of_ne _ _ different]
      exact ⟨rfl, rfl⟩
  | finish worker now | pushRest worker now =>
      have different : index ≠ worker := fun same => other now (by rw [same])
      rw [finishJob, State.workers_setWorker_of_ne _ _ different]
      exact ⟨rfl, rfl⟩
  | allocationPanic worker now | stop worker now | indexPanic worker now =>
      have different : index ≠ worker := fun same => other now (by rw [same])
      rw [State.workers_setWorker_of_ne _ _ different, dropInbox_eq]
      exact ⟨rfl, rfl⟩
  | _ => exact ⟨rfl, rfl⟩

/-- Whatever the other tasks do meanwhile, a worker that handles a request makes a
call: as long as it handles it, it stands inside the call, and it leaves the
request as the call ends. -/
theorem continues_run {labels : List Label} {final : State}
    (at_phase : (state.workers index).phase = .handling job)
    (during : Meets (step config)
      (fun state _ => ∃ job, (state.workers index).phase = .handling job) state labels)
    (ran : run (step config) state labels = some final) :
    Continues config.chunkBytes job (state.workers index) (final.workers index) := by
  induction labels generalizing state job with
  | nil =>
      cases ran
      exact .handling job at_phase rfl [] 0 fun rest alive => by rw [List.nil_append, Nat.zero_add]
  | cons label rest inductionHypothesis =>
      obtain ⟨next, stepped, ranRest⟩ := run_cons.mp ran
      have duringRest := during.2 next stepped
      have moves := moves_of_step stepped
      have first : Continues config.chunkBytes job (state.workers index) (next.workers index) := by
        by_cases own : ∃ now, label = .work index now
        · obtain ⟨now, rfl⟩ := own
          exact moves.continues at_phase
        · obtain ⟨samePhase, sameCall⟩ := moves.keepsCall fun now same => own ⟨now, same⟩
          refine .handling job (samePhase.trans at_phase) rfl [] 0 ?_
          intro rest alive
          rw [List.nil_append, Nat.zero_add, sameCall]
      -- A worker that has left the request has made the last step of the run.
      have isLast : (∀ other, (next.workers index).phase ≠ .handling other) → rest = [] := by
        intro left
        cases rest with
        | nil => rfl
        | cons label rest =>
            obtain ⟨other, handling⟩ := duringRest.1
            exact absurd handling (left other)
      cases first with
      | handling job' nextPhase same readings operations agrees =>
          exact Continues.trans agrees same (inductionHypothesis nextPhase duringRest ranRest)
      | waiting nextPhase readings operations agrees =>
          obtain rfl := isLast fun other => by simp [nextPhase]
          cases ranRest
          exact .waiting nextPhase readings operations agrees
      | panicked nextPhase readings operations agrees =>
          obtain rfl := isLast fun other => by simp [nextPhase]
          cases ranRest
          exact .panicked nextPhase readings operations agrees

end Refinement

/-! ## Exact ends -/

namespace Processor

/-- The pass of a counter through a multiple of the chunk size. -/
theorem succ_mod_div {idsPerChunk : Nat} (positive : 0 < idsPerChunk) (generated : Nat) :
    (generated % idsPerChunk + 1 = idsPerChunk ∧ (generated + 1) % idsPerChunk = 0 ∧
        (generated + 1) / idsPerChunk = generated / idsPerChunk + 1) ∨
      (generated % idsPerChunk + 1 < idsPerChunk ∧
        (generated + 1) % idsPerChunk = generated % idsPerChunk + 1 ∧
        (generated + 1) / idsPerChunk = generated / idsPerChunk) := by
  have below := Nat.mod_lt generated positive
  have split := Nat.mod_add_div generated idsPerChunk
  by_cases last : generated % idsPerChunk + 1 = idsPerChunk
  · obtain ⟨quotient, remainder⟩ :=
      (Nat.div_mod_unique (a := generated + 1) (d := generated / idsPerChunk + 1) positive).mpr
        ⟨show 0 + idsPerChunk * (generated / idsPerChunk + 1) = generated + 1 by
          rw [Nat.mul_add]; omega, positive⟩
    exact Or.inl ⟨last, remainder, quotient⟩
  · have more : generated % idsPerChunk + 1 < idsPerChunk := by
      omega
    obtain ⟨quotient, remainder⟩ :=
      (Nat.div_mod_unique (a := generated + 1) (d := generated / idsPerChunk) positive).mpr
        ⟨show generated % idsPerChunk + 1 + idsPerChunk * (generated / idsPerChunk) =
          generated + 1 by omega, more⟩
    exact Or.inr ⟨more, remainder, quotient⟩

/-- A buffer of whole IDs, filled as far as the count of the call says. -/
structure Filled (idsPerChunk generated : Nat) (processor : Processor) : Prop where
  sized : processor.chunkBuf.length = SNOWFLAKE_ID_SIZE * idsPerChunk
  position : processor.buffPos = SNOWFLAKE_ID_SIZE * (generated % idsPerChunk)

section Write

variable {idsPerChunk generated : Nat} {self : Processor}
  (generator : BasicSnowflakeGenerator ServerLayout) (id : ServerId)

theorem Filled.fits (positive : 0 < idsPerChunk) (filled : Filled idsPerChunk generated self) :
    self.buffPos + SNOWFLAKE_ID_SIZE ≤ self.chunkBuf.length := by
  have below := Nat.mod_lt generated positive
  rw [filled.sized, filled.position, SNOWFLAKE_ID_SIZE]
  omega

theorem length_write (fits : self.buffPos + SNOWFLAKE_ID_SIZE ≤ self.chunkBuf.length) :
    (self.write generator id).chunkBuf.length = self.chunkBuf.length := by
  show (self.chunkBuf.take self.buffPos ++ toLeBytes id ++
    self.chunkBuf.drop (self.buffPos + SNOWFLAKE_ID_SIZE)).length = _
  rw [List.length_append, List.length_append, List.length_take, List.length_drop,
    length_toLeBytes]
  omega

/-- Short of a full buffer, the next ID goes behind the last one. -/
theorem Filled.write (positive : 0 < idsPerChunk) (filled : Filled idsPerChunk generated self)
    (next : (generated + 1) % idsPerChunk = generated % idsPerChunk + 1) :
    Filled idsPerChunk (generated + 1) (self.write generator id) where
  sized := (length_write generator id (filled.fits positive)).trans filled.sized
  position := by
    show self.buffPos + SNOWFLAKE_ID_SIZE = _
    rw [next, filled.position, SNOWFLAKE_ID_SIZE]
    omega

/-- A full buffer that was sent is empty again. -/
theorem Filled.push (positive : 0 < idsPerChunk) (filled : Filled idsPerChunk generated self)
    (next : (generated + 1) % idsPerChunk = 0) (bytes : IdChunk) :
    Filled idsPerChunk (generated + 1) ((self.write generator id).push bytes) where
  sized := (length_write generator id (filled.fits positive)).trans filled.sized
  position := by
    rw [next, Nat.mul_zero]
    rfl

end Write

/-- The chunks sent since `start` and the bytes in the buffer are the given IDs. -/
structure Written (start : List IdChunk) (ids : List ServerId) (processor : Processor) :
    Prop where
  packed : ∃ chunks, processor.sent = start ++ chunks ∧
    chunks.flatten ++ processor.chunkBuf.take processor.buffPos = pack ids

namespace Written

variable {start : List IdChunk} {ids : List ServerId} {self : Processor}

theorem write (written : Written start ids self)
    (generator : BasicSnowflakeGenerator ServerLayout) (id : ServerId)
    (fits : self.buffPos + SNOWFLAKE_ID_SIZE ≤ self.chunkBuf.length) :
    Written start (ids ++ [id]) (self.write generator id) := by
  obtain ⟨chunks, sent, bytes⟩ := written.packed
  refine ⟨chunks, sent, ?_⟩
  show chunks.flatten ++ (self.chunkBuf.take self.buffPos ++ toLeBytes id ++
    self.chunkBuf.drop (self.buffPos + SNOWFLAKE_ID_SIZE)).take
      (self.buffPos + SNOWFLAKE_ID_SIZE) = _
  rw [take_written _ _ _ fits, ← List.append_assoc, bytes, pack_append]
  simp [pack]

theorem push (written : Written start ids self) {bytes : IdChunk}
    (all : self.chunkBuf.take self.buffPos = bytes) : Written start ids (self.push bytes) := by
  obtain ⟨chunks, sent, packed⟩ := written.packed
  refine ⟨chunks ++ [bytes], ?_, ?_⟩
  · show self.sent ++ [bytes] = _
    rw [sent, List.append_assoc]
  · rw [← packed, all]
    simp [Processor.push]

/-- What has been sent since the start are bytes of those IDs. -/
theorem own (written : Written start ids self) (more : List ServerId) :
    ∃ chunks, self.sent = start ++ chunks ∧ chunks.flatten <+: pack (ids ++ more) := by
  obtain ⟨chunks, sent, packed⟩ := written.packed
  refine ⟨chunks, sent, ?_⟩
  rw [pack_append, ← packed, List.append_assoc]
  exact List.prefix_append _ _

end Written

/-- Operations that a call at a count of IDs still has to find open to leave the
position at zero: two for every full chunk, and the check before the flush. -/
def openOperations (idsPerChunk chunkSize generated : Nat) : Nat :=
  2 * (chunkSize / idsPerChunk - generated / idsPerChunk) +
    if chunkSize % idsPerChunk = 0 then 0 else 1

/-- How a call ends that starts after the chunks `start` and generates some of the
IDs `ids`. -/
structure EndsAs (start : List IdChunk) (ids : List ServerId)
    (idsPerChunk operations alive : Nat) (final : Processor) : Prop where
  sized : final.chunkBuf.length = SNOWFLAKE_ID_SIZE * idsPerChunk
  reset : final.buffPos = 0 ↔ operations ≤ alive
  own : ∃ chunks, final.sent = start ++ chunks ∧ chunks.flatten <+: pack ids

/-- A call that does not panic: it returns as described, or still waits for IDs. -/
inductive Ends (Good : Processor → Prop) (Starved : Prop) : HandleOutcome → Prop where
  | returned {final : Processor} (good : Good final) : Ends Good Starved (.returned final)
  | running (starved : Starved) : Ends Good Starved .running

theorem Ends.mono {Good Better : Processor → Prop} {Starved Hungrier : Prop}
    {outcome : HandleOutcome} (ends : Ends Good Starved outcome)
    (better : ∀ final, Good final → Better final) (hungrier : Starved → Hungrier) :
    Ends Better Hungrier outcome := by
  cases ends with
  | returned good => exact .returned (better _ good)
  | running starved => exact .running (hungrier starved)

section Ends

variable {idsPerChunk chunkSize generated alive : Nat} {self : Processor}
  {start : List IdChunk} {ids : List ServerId}

/-- The flush at the end of the loop. -/
theorem endsAs_flush (filled : Filled idsPerChunk chunkSize self)
    (written : Written start ids self) (more : List ServerId) :
    EndsAs start (ids ++ more) idsPerChunk (openOperations idsPerChunk chunkSize chunkSize) alive
      (self.flush alive) := by
  have position := filled.position
  rw [SNOWFLAKE_ID_SIZE] at position
  rw [openOperations, Nat.sub_self, flush]
  by_cases flushes : 0 < self.buffPos ∧ 0 < alive
  · have partial_ : ¬ chunkSize % idsPerChunk = 0 := by
      omega
    rw [if_pos flushes, if_neg partial_]
    by_cases sends : 1 < alive
    · rw [if_pos sends]
      exact ⟨filled.sized, iff_of_true rfl (by omega), (written.push rfl).own more⟩
    · rw [if_neg sends]
      exact ⟨filled.sized, iff_of_true rfl (by omega), written.own more⟩
  · rw [if_neg flushes]
    refine ⟨filled.sized, ?_, written.own more⟩
    split
    · omega
    · omega

/-- What `handleLoop` promises from any iteration on. -/
def LoopEnds (idsPerChunk chunkSize : Nat) (readings : List ServerLayout.Ty)
    (start : List IdChunk) (ids : List ServerId) (generated alive : Nat) (self : Processor) :
    Prop :=
  Ends
    (EndsAs start
      (ids ++ readyIds (pollAll BasicSnowflakeGenerator.pollId self.generator readings))
      idsPerChunk (openOperations idsPerChunk chunkSize generated) alive)
    (generated + (readyIds
      (pollAll BasicSnowflakeGenerator.pollId self.generator readings)).length < chunkSize)
    (handleLoop (SNOWFLAKE_ID_SIZE * idsPerChunk) chunkSize readings generated alive self)

/-- An iteration that gets an ID, from what the loop promises of the next one. -/
theorem loopEnds_ready (positive : 0 < idsPerChunk) {now : ServerLayout.Ty}
    {rest : List ServerLayout.Ty} (more : generated < chunkSize)
    (filled : Filled idsPerChunk generated self) (written : Written start ids self)
    {id : ServerId} (ready : (self.generator.pollId now).2 = .ready id)
    (later : ∀ alive self, Filled idsPerChunk (generated + 1) self →
      Written start (ids ++ [id]) self →
        LoopEnds idsPerChunk chunkSize rest start (ids ++ [id]) (generated + 1) alive self) :
    LoopEnds idsPerChunk chunkSize (now :: rest) start ids generated alive self := by
  have fits := filled.fits positive
  have position := filled.position
  have wrote := written.write (self.generator.pollId now).1 id fits
  have sized := (length_write (self.generator.pollId now).1 id fits).trans filled.sized
  have chunksLeft : (generated + 1) / idsPerChunk ≤ chunkSize / idsPerChunk :=
    Nat.div_le_div_right more
  rw [SNOWFLAKE_ID_SIZE] at position
  rw [LoopEnds, handleLoop_ready self more ready fits, readyIds_pollAll_ready ready,
    List.append_cons, List.length_cons]
  rcases succ_mod_div positive generated with ⟨last, next, quotient⟩ | ⟨room, next, quotient⟩
  · have full : self.buffPos + SNOWFLAKE_ID_SIZE = SNOWFLAKE_ID_SIZE * idsPerChunk := by
      rw [SNOWFLAKE_ID_SIZE]
      omega
    simp only [if_pos full]
    split
    · next closed =>
        -- The receiver is gone: the position stays at the end of the buffer.
        refine .returned ⟨sized, ?_, wrote.own _⟩
        apply iff_of_false
        · exact Nat.succ_ne_zero _
        · rw [openOperations]
          omega
    · next open_ =>
        have wholeBuffer := wrote.push (List.take_of_length_le (sized.trans full.symm).le)
        refine (later (alive - 2) _ (filled.push _ id positive next _) wholeBuffer).mono ?_ ?_
        · rintro final ⟨finalSized, reset, own⟩
          refine ⟨finalSized, reset.trans ?_, own⟩
          rw [openOperations, openOperations]
          omega
        · intro starved
          exact lt_of_eq_of_lt (Nat.add_right_comm generated _ 1) starved
  · have notFull : ¬ self.buffPos + SNOWFLAKE_ID_SIZE = SNOWFLAKE_ID_SIZE * idsPerChunk := by
      rw [SNOWFLAKE_ID_SIZE]
      omega
    simp only [if_neg notFull]
    refine (later alive _ (filled.write _ id positive next) wrote).mono ?_ ?_
    · rintro final ⟨finalSized, reset, own⟩
      refine ⟨finalSized, reset.trans ?_, own⟩
      rw [openOperations, openOperations, quotient]
    · intro starved
      exact lt_of_eq_of_lt (Nat.add_right_comm generated _ 1) starved

/-- The loop leaves with all IDs, whatever readings are left. -/
theorem loopEnds_done (readings : List ServerLayout.Ty) (filled : Filled idsPerChunk chunkSize self)
    (written : Written start ids self) :
    LoopEnds idsPerChunk chunkSize readings start ids chunkSize alive self := by
  rw [LoopEnds, handleLoop_done self (Nat.lt_irrefl chunkSize)]
  exact .returned (endsAs_flush filled written _)

/-- The loop: no iteration panics, and every end is as described. The induction is
on the readings; `Filled` carries the position and `Written` the bytes. -/
theorem loopEnds (positive : 0 < idsPerChunk) (readings : List ServerLayout.Ty)
    (bounded : generated ≤ chunkSize) (filled : Filled idsPerChunk generated self)
    (written : Written start ids self) :
    LoopEnds idsPerChunk chunkSize readings start ids generated alive self := by
  induction readings generalizing generated alive self ids with
  | nil =>
      by_cases more : generated < chunkSize
      · rw [LoopEnds, handleLoop, if_pos more]
        exact .running more
      · obtain rfl : generated = chunkSize := by omega
        exact loopEnds_done _ filled written
  | cons now rest inductionHypothesis =>
      by_cases more : generated < chunkSize
      · cases outcome : (self.generator.pollId now).2 with
        | pending yieldFor =>
            have pending : (self.generator.pollId now).2.IsPending := ⟨yieldFor, outcome⟩
            have polled : Filled idsPerChunk generated
                { self with generator := (self.generator.pollId now).1 } :=
              ⟨filled.sized, filled.position⟩
            rw [LoopEnds, handleLoop_pending self more pending, readyIds_pollAll_pending pending]
            exact inductionHypothesis bounded polled ⟨written.packed⟩
        | ready id =>
            exact loopEnds_ready positive more filled written outcome
              fun alive self => inductionHypothesis more
      · obtain rfl : generated = chunkSize := by omega
        exact loopEnds_done _ filled written

end Ends

/-! ## The next request -/

/-- Whatever request comes next is handled without a panic, and the bytes sent for
it are bytes of IDs generated for it. -/
def Reusable (chunkBytes : Nat) (self : Processor) : Prop :=
  ∀ chunkSize readings alive,
    handleStreamRequest chunkBytes chunkSize readings alive self ≠ .panicked ∧
      ∀ final, handleStreamRequest chunkBytes chunkSize readings alive self = .returned final →
        ∃ chunks, final.sent = self.sent ++ chunks ∧ chunks.flatten <+:
          pack (readyIds (pollAll BasicSnowflakeGenerator.pollId self.generator readings))

/-- A call from position zero. -/
theorem handleStreamRequest_ends {idsPerChunk : Nat} (positive : 0 < idsPerChunk)
    (chunkSize alive : Nat) (readings : List ServerLayout.Ty) {self : Processor}
    (sized : self.chunkBuf.length = SNOWFLAKE_ID_SIZE * idsPerChunk) (start : self.buffPos = 0) :
    LoopEnds idsPerChunk chunkSize readings self.sent [] 0 alive self := by
  have filled : Filled idsPerChunk 0 self :=
    ⟨sized, by rw [start, Nat.zero_mod, Nat.mul_zero]⟩
  have written : Written self.sent [] self :=
    ⟨[], (List.append_nil _).symm, by rw [start, List.take_zero]; rfl⟩
  exact loopEnds positive readings (Nat.zero_le chunkSize) filled written

theorem reusable_of_reset {idsPerChunk : Nat} (positive : 0 < idsPerChunk) {self : Processor}
    (sized : self.chunkBuf.length = SNOWFLAKE_ID_SIZE * idsPerChunk) (start : self.buffPos = 0) :
    Reusable (SNOWFLAKE_ID_SIZE * idsPerChunk) self := by
  intro chunkSize readings alive
  have ends := handleStreamRequest_ends positive chunkSize alive readings sized start
  rw [LoopEnds] at ends
  constructor
  · intro panicked
    rw [handleStreamRequest] at panicked
    rw [panicked] at ends
    cases ends
  · intro final returned
    rw [handleStreamRequest] at returned
    rw [returned] at ends
    cases ends with
    | returned good => exact good.own

/-- A call from position zero never panics and returns once its generator has
yielded the IDs asked for. It leaves the worker reusable exactly when the receiver
was open at the check and the send of every full chunk and at the check before a
partial one. -/
theorem handleStreamRequest_reusable_iff (idsPerChunk chunkSize alive : Nat)
    (readings : List ServerLayout.Ty) (self : Processor) (positive : 1 ≤ idsPerChunk)
    (sized : self.chunkBuf.length = SNOWFLAKE_ID_SIZE * idsPerChunk) (start : self.buffPos = 0) :
    let call := handleStreamRequest (SNOWFLAKE_ID_SIZE * idsPerChunk) chunkSize readings alive self
    call ≠ .panicked ∧
      (chunkSize ≤ (readyIds
        (pollAll BasicSnowflakeGenerator.pollId self.generator readings)).length →
          ∃ final, call = .returned final) ∧
      ∀ final, call = .returned final →
        (final.buffPos = 0 ∧ Reusable (SNOWFLAKE_ID_SIZE * idsPerChunk) final ↔
          2 * (chunkSize / idsPerChunk) + (if chunkSize % idsPerChunk = 0 then 0 else 1) ≤
            alive) := by
  intro call
  have ends := handleStreamRequest_ends positive chunkSize alive readings sized start
  rw [LoopEnds] at ends
  refine ⟨(reusable_of_reset positive sized start chunkSize readings alive).1, ?_, ?_⟩
  · intro enough
    cases outcome :
        handleLoop (SNOWFLAKE_ID_SIZE * idsPerChunk) chunkSize readings 0 alive self with
    | returned final => exact ⟨final, outcome⟩
    | panicked =>
        rw [outcome] at ends
        cases ends
    | running =>
        rw [outcome] at ends
        cases ends with
        | running starved => omega
  · intro final returned
    have returned : handleLoop (SNOWFLAKE_ID_SIZE * idsPerChunk) chunkSize readings 0 alive self =
        .returned final := returned
    rw [returned] at ends
    cases ends with
    | returned good =>
        have needed : openOperations idsPerChunk chunkSize 0 =
            2 * (chunkSize / idsPerChunk) + if chunkSize % idsPerChunk = 0 then 0 else 1 := by
          rw [openOperations, Nat.zero_div, Nat.sub_zero]
        rw [← needed, ← good.reset]
        exact ⟨fun both => both.1,
          fun reset => ⟨reset, reusable_of_reset positive good.sized reset⟩⟩

/-- A worker before its first request. -/
def fresh (idsPerChunk : Nat) : Processor :=
  ⟨BasicSnowflakeGenerator.new 0, List.replicate (SNOWFLAKE_ID_SIZE * idsPerChunk) 0, 0, []⟩

/-- A request for one ID in chunks of two, whose receiver leaves during the last send. -/
theorem handleStreamRequest_reusable_iff_partial :
    ∃ final, handleStreamRequest 16 1 [1] 1 (fresh 2) = .returned final ∧ final.buffPos = 0 ∧
      Reusable 16 final := by
  obtain ⟨_, returns, exact_⟩ := handleStreamRequest_reusable_iff 2 1 1 [1] (fresh 2)
    (by decide) rfl rfl
  obtain ⟨final, returned⟩ := returns (by decide)
  exact ⟨final, returned, (exact_ final returned).mpr (by decide)⟩

/-- The receiver leaves before the only send. With chunks of one ID, the next
request panics; with chunks of two, its client is sent two IDs for the one it
asked for, the first of them generated for the client that left. -/
theorem handleStreamRequest_leaves_position :
    (∃ final, handleStreamRequest 8 1 [1] 0 (fresh 1) = .returned final ∧ final.buffPos = 8 ∧
        handleStreamRequest 8 1 [2] 2 final = .panicked) ∧
      ∃ final last, handleStreamRequest 16 1 [1] 0 (fresh 2) = .returned final ∧
        final.buffPos = 8 ∧ handleStreamRequest 16 1 [2] 2 final = .returned last ∧
        (last.sent.flatMap unpack).length = 2 :=
  ⟨⟨_, rfl, rfl, rfl⟩, ⟨_, _, rfl, rfl, rfl, rfl⟩⟩

end Processor

end Ferroid.Server
