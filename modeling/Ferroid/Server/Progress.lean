import Ferroid.Server.Production
import Ferroid.Server.Response
import Ferroid.Server.Stranding
import Ferroid.Server.Weight

/-!
Contract: nothing but an exhausted clock keeps a stream from its end.

Owns which steps are possible: a worker with something to do can always do it, a
stream that has not ended always has a step that brings it closer, and so there is
a way to its end from every state.

Does not own what a stream contains when it ends.
-/

namespace Ferroid.Server

open Ferroid.Id
open Ferroid.Generator
open Ferroid.Library

/-! ## Workers -/

/-- A worker needs an ID, and gets none at any reading in range. -/
def Worker.Starved (worker : Worker) : Prop :=
  ∀ now, now ≤ ServerLayout.maxTimestamp → worker.Stalls now

/-- A reading in range that is at most one millisecond past the last ID. -/
def Worker.Prompt (worker : Worker) (now : ServerLayout.Ty) : Prop :=
  now ≤ ServerLayout.maxTimestamp ∧ now.toNat ≤ worker.generator.state.timestamp.toNat + 1

/-- A clock need not jump to give a worker its next ID. -/
theorem exists_prompt {worker : Worker} (fresh : ¬ worker.Starved) :
    ∃ now, worker.Prompt now ∧ ¬ worker.Stalls now := by
  simp only [Worker.Starved, not_forall] at fresh
  obtain ⟨now, fits, active⟩ := fresh
  by_cases prompt : now.toNat ≤ worker.generator.state.timestamp.toNat + 1
  · exact ⟨now, ⟨fits, prompt⟩, active⟩
  · -- the millisecond after the last ID is in range too, and gives the first ID of a tick
    have inRange := BitVec.le_def.mp fits
    have size := now.isLt
    have next : (worker.generator.state.timestamp + 1#_).toNat =
        worker.generator.state.timestamp.toNat + 1 := by
      rw [BitVec.toNat_add, BitVec.toNat_one (by decide), Nat.mod_eq_of_lt (by omega)]
    refine ⟨worker.generator.state.timestamp + 1#_,
      ⟨BitVec.le_def.mpr (by omega), Nat.le_of_eq next⟩, fun stalls => ?_⟩
    unfold Worker.Stalls at stalls
    split at stalls
    · obtain ⟨_, _, yieldFor, pending⟩ := stalls
      have later : worker.generator.state.timestamp < worker.generator.state.timestamp + 1#_ :=
        BitVec.lt_def.mpr (by omega)
      have polls := BasicSnowflakeGenerator.polls_pollId worker.generator
        (worker.generator.state.timestamp + 1#_)
      generalize worker.generator.pollId (worker.generator.state.timestamp + 1#_) = outcome
        at polls pending
      cases polls with
      | increment | rollover => cases pending
      | exhausted same => exact absurd same (BitVec.ne_of_lt later).symm
      | behind earlier => exact absurd later (BitVec.not_lt.mpr (BitVec.le_of_lt earlier))
    · exact stalls

section Worker

variable {config : ServerConfig} {state : State} {index : Nat}

/-- A channel that waits for its chunk has room for it. -/
theorem Linked.room {request : StreamRequest} {sender : Sender}
    (ok : CallOk config state.cancelled (state.calls request.call))
    (linked : Linked (state.calls request.call) index request sender false) :
    state.queued request < chunkCapacity := by
  obtain ⟨remaining, channel, at_phase, number, _, _, _, _, empty⟩ := linked.receiving ok
  have found : (state.calls request.call).channel? request.channel = some channel :=
    channel?_eq_some.mpr ⟨number, remaining, Or.inl at_phase⟩
  rw [State.queued, found]
  simp [empty, chunkCapacity]

/-- A worker in a request can go on with it. -/
theorem Inv.job_moves (inv : Inv config state) {job : Job}
    (at_phase : (state.workers index).phase = .handling job) (now : ServerLayout.Ty) :
    ∃ next, jobStep config state index now job = some next := by
  have phaseOk := (inv.workers index).phaseOk
  simp only [PhaseOk, at_phase] at phaseOk
  obtain ⟨_, _, jobOk⟩ := phaseOk
  unfold jobStep
  cases at_point : job.point with
  | generating =>
      dsimp only
      split
      · split
        · split <;> exact ⟨_, rfl⟩
        · exact ⟨_, rfl⟩
      · split <;> exact ⟨_, rfl⟩
  | checking =>
      dsimp only
      split <;> exact ⟨_, rfl⟩
  | sendingFull bytes =>
      simp only [JobOk, at_point] at jobOk
      simp only [jobOk.linked.not_closed, Bool.false_eq_true, if_false,
        jobOk.linked.room (inv.calls _), if_true]
      exact ⟨_, rfl⟩
  | sendingRest bytes =>
      simp only [JobOk, at_point] at jobOk
      simp only [jobOk.1.linked.not_closed, Bool.false_eq_true, if_false,
        jobOk.1.linked.room (inv.calls _), if_true]
      exact ⟨_, rfl⟩

/-- A worker that is up and has something to do can do it. -/
theorem Inv.worker_moves (inv : Inv config state) (known : index < config.numWorkers)
    (up : (state.workers index).isDown = false)
    (busy : (state.workers index).phase = .waiting → (state.workers index).inbox ≠ [])
    (now : ServerLayout.Ty) : ∃ next, workStep config state index now = some next := by
  simp only [workStep, known, if_true]
  cases at_phase : (state.workers index).phase with
  | starting =>
      dsimp only
      split <;> exact ⟨_, rfl⟩
  | waiting =>
      cases waiting : (state.workers index).inbox with
      | nil => exact absurd waiting (busy at_phase)
      | cons work inbox => cases work <;> exact ⟨_, rfl⟩
  | handling job => exact inv.job_moves at_phase now
  | stopping => exact ⟨_, rfl⟩
  | stopped => simp [Worker.isDown, at_phase] at up
  | panicked => simp [Worker.isDown, at_phase] at up

/-- So can one that a sender is queued at or held by. -/
theorem OwnedBy.worker_moves (inv : Inv config state) {channel : ChunkChannel} {call : Nat}
    (owned : OwnedBy state.workers call channel) (known : channel.worker < config.numWorkers)
    (alive : channel.sender ≠ .dropped)
    (up : WorkRequest.stream (channel.request call) ∈ (state.workers channel.worker).inbox →
      (state.workers channel.worker).isDown = false) (now : ServerLayout.Ty) :
    ∃ next, workStep config state channel.worker now = some next := by
  unfold OwnedBy at owned
  cases sender : channel.sender with
  | queued =>
      simp only [sender] at owned
      exact inv.worker_moves known (up owned) (fun _ => List.ne_nil_of_mem owned) now
  | held =>
      simp only [sender] at owned
      obtain ⟨job, at_phase, _⟩ := owned
      refine inv.worker_moves known (by simp [Worker.isDown, at_phase]) (fun waiting => ?_) now
      rw [at_phase] at waiting
      cases waiting
  | dropped => exact absurd sender alive

end Worker

/-! ## Streams -/

/-- The request is, or will be, admitted. -/
def Live (config : ServerConfig) (shutdown : Bool) (call : Call) : Prop :=
  let admits := 0 < call.count ∧ call.count ≤ config.maxAllowedIds
  match call.phase with
  | .arrived => shutdown = false ∧ admits ∧ config.streamBufferSize ≤ maxPermits
  | .checked => admits ∧ config.streamBufferSize ≤ maxPermits
  | .counted => config.streamBufferSize ≤ maxPermits
  | .feeding _ _ | .returned | .done => True
  | .absent | .rejected _ | .panicked => False

/-- The call is, or will be, admitted, and its client is there. -/
structure Waits (config : ServerConfig) (shutdown : Bool) (call : Call) : Prop where
  live : Live config shutdown call
  connected : call.connected = true

/-- Steps of one call, of its client and of any worker, whose clock does not jump and whose
allocations succeed. Another call only pushes a request that it has the permit for. -/
def Serving (config : ServerConfig) (index : Nat) (state : State) : Label → Prop
  | .call other => (other = index ∨ ∃ worker, (state.calls other).phase.Pushes worker) ∧
      Safe config state (.call other)
  | .receive other => other = index
  | .work worker now => (state.workers worker).Prompt now
  | .arrive _ | .disconnect _ | .abort _ | .manage _ => False

/-- The feed task has a permit of a worker that is gone or would lose its request. -/
def Misled (config : ServerConfig) (state : State) (index : Nat) : Prop :=
  ∃ remaining worker chunkSize,
    (state.calls index).phase = .feeding remaining (.pushing worker chunkSize) ∧
    ((state.workers worker).isDown = true ∨
      ¬ MayHandOver config state.workers (.feeding remaining (.pushing worker chunkSize)))

/-- The worker that a feed task sends to or waits for. -/
def CallPhase.awaited : CallPhase → Option Nat
  | .feeding _ (.sending worker _) => some worker
  | .feeding _ (.receiving channel) => some channel.worker
  | _ => none

/-- The worker that the stream waits for has run out of IDs. -/
def OutOfIds (state : State) (index : Nat) : Prop :=
  ∃ worker, (state.calls index).phase.awaited = some worker ∧ (state.workers worker).Starved

/-- The worker has not started yet, or has taken `Shutdown`. -/
def Worker.Passing (worker : Worker) : Prop :=
  worker.phase = .starting ∨ worker.phase = .stopping

/-- A step that serves a call and is no unsuccessful poll. It comes from a task that takes
no permit of a worker that may be gone soon, and pushes before anything else. -/
structure Advance (config : ServerConfig) (index : Nat) (state : State) (label : Label)
    (next : State) : Prop where
  serving : Serving config index state label
  stepped : step config state label = some next
  active : ∀ worker now, label = .work worker now → ¬ (state.workers worker).Stalls now
  careful : label = .call index → ∀ remaining worker chunkSize,
    (state.calls index).phase = .feeding remaining (.sending worker chunkSize) →
      ¬ (state.workers worker).Passing
  pushesFirst : ∀ worker now, label = .work worker now → ∀ other,
    ¬ (state.calls index).phase.Pushes other

def Advances (config : ServerConfig) (index : Nat) (state : State) : Prop :=
  ∃ label next, Advance config index state label next

section Stream

variable {config : ServerConfig} {state : State} {index : Nat}

theorem advances_of_call (alive : state.aborted = false)
    (safe : MayHandOver config state.workers (state.calls index).phase)
    (careful : ∀ remaining worker chunkSize,
      (state.calls index).phase = .feeding remaining (.sending worker chunkSize) →
        ¬ (state.workers worker).Passing)
    (moves : ∃ next, callStep config state index = some next) : Advances config index state := by
  obtain ⟨next, stepped⟩ := moves
  exact ⟨.call index, next, ⟨Or.inl rfl, safe⟩, step_eq_some.mpr ⟨alive, stepped⟩, by simp,
    fun _ => careful, by simp⟩

theorem advances_of_push (alive : state.aborted = false) {other remaining worker chunkSize : Nat}
    (different : other ≠ index)
    (at_phase : (state.calls other).phase = .feeding remaining (.pushing worker chunkSize))
    (settled : ¬ (state.workers worker).Passing) : Advances config index state := by
  have safe : Safe config state (.call other) := by
    simp only [Safe, MayHandOver, at_phase]
    exact ⟨fun starting => absurd (Or.inl starting) settled,
      fun stopping => absurd (Or.inr stopping) settled⟩
  have moves : ∃ next, callStep config state other = some next := by
    simp only [callStep, at_phase, feedStep]
    exact ⟨_, rfl⟩
  obtain ⟨next, stepped⟩ := moves
  refine ⟨.call other, next, ⟨Or.inr ⟨worker, remaining, chunkSize, at_phase⟩, safe⟩,
    step_eq_some.mpr ⟨alive, stepped⟩, by simp, fun same => ?_, by simp⟩
  exact absurd (Label.call.inj same) different

theorem advances_of_work (alive : state.aborted = false) {worker : Nat}
    (fresh : ¬ (state.workers worker).Starved)
    (idle : ∀ other, ¬ (state.calls index).phase.Pushes other)
    (moves : ∀ now, ∃ next, workStep config state worker now = some next) :
    Advances config index state := by
  obtain ⟨now, prompt, active⟩ := exists_prompt fresh
  obtain ⟨next, stepped⟩ := moves now
  refine ⟨.work worker now, next, prompt, step_eq_some.mpr ⟨alive, stepped⟩, ?_, by simp,
    fun _ _ _ => idle⟩
  rintro other reading ⟨rfl, rfl⟩
  exact active

theorem advances_of_receive (alive : state.aborted = false)
    (stream : (state.calls index).hasStream = true)
    (connected : (state.calls index).connected = true)
    (queued : (state.calls index).resp ≠ []) : Advances config index state := by
  obtain ⟨item, resp, waiting⟩ := List.exists_cons_of_ne_nil queued
  have moves : ∃ next, receiveStep state index = some next := by
    simp only [receiveStep, stream, connected, Bool.and_self, if_true, waiting]
    exact ⟨_, rfl⟩
  obtain ⟨next, stepped⟩ := moves
  exact ⟨.receive index, next, rfl, step_eq_some.mpr ⟨alive, stepped⟩, by simp, by simp, by simp⟩

/-- A response channel without room has something for its client. -/
theorem resp_ne_nil (buffer : 0 < config.streamBufferSize)
    (noRoom : ¬ (state.calls index).resp.length < config.streamBufferSize) :
    (state.calls index).resp ≠ [] := by
  intro empty
  rw [empty, List.length_nil] at noRoom
  exact noRoom buffer

/-- What a stream that is on its way can rely on. -/
structure Servable (config : ServerConfig) (index : Nat) (state : State) : Prop where
  inv : Inv config state
  permitted : Permitted state
  owned : Owned config state
  alive : state.aborted = false
  reachable : ¬ Stranded state index
  led : ¬ Misled config state index
  waits : Waits config state.shutdown (state.calls index)

/-- A request in the inbox of a worker that is gone strands its stream. -/
theorem Inv.stranded (inv : Inv config state) {worker : Nat} {request : StreamRequest}
    (down : (state.workers worker).isDown = true)
    (member : .stream request ∈ (state.workers worker).inbox) : Stranded state request.call := by
  obtain ⟨linked, _⟩ := (inv.workers worker).queued request member
  obtain ⟨remaining, channel, at_phase, number, rfl, size, sender, _, empty⟩ :=
    linked.receiving (inv.calls _)
  have same : channel.request request.call = request := by
    simp only [ChunkChannel.request, number, size]
  exact ⟨remaining, channel, at_phase, empty, sender, down, same.symm ▸ member⟩

/-- A feed task that wants a permit gets it, or its worker or a push makes room. -/
theorem Servable.advances_sending (servable : Servable config index state)
    {remaining worker chunkSize : Nat}
    (at_phase : (state.calls index).phase = .feeding remaining (.sending worker chunkSize))
    (fresh : ¬ (state.workers worker).Starved) : Advances config index state := by
  have known := servable.owned index
  simp only [CallOwned, at_phase, StageOwned] at known
  have idle : ∀ other, ¬ (state.calls index).phase.Pushes other := by
    simp [CallPhase.Pushes, at_phase]
  have works : (state.workers worker).isDown = false →
      ((state.workers worker).phase = .waiting → (state.workers worker).inbox ≠ []) →
      Advances config index state := fun up busy =>
    advances_of_work servable.alive fresh idle (servable.inv.worker_moves known up busy)
  by_cases passing : (state.workers worker).Passing
  · rcases passing with worker_phase | worker_phase
    · exact works (by simp [Worker.isDown, worker_phase]) (by simp [worker_phase])
    · exact works (by simp [Worker.isDown, worker_phase]) (by simp [worker_phase])
  · have safe : MayHandOver config state.workers (state.calls index).phase := by
      simp [MayHandOver, at_phase]
    have careful : ∀ remaining' worker' chunkSize', (state.calls index).phase =
        .feeding remaining' (.sending worker' chunkSize') → ¬ (state.workers worker').Passing := by
      intro _ _ _ again
      rw [at_phase] at again
      cases again
      exact passing
    by_cases down : (state.workers worker).isDown = true
    · apply advances_of_call servable.alive safe careful
      simp only [callStep, at_phase, feedStep, down, if_true]
      exact ⟨_, rfl⟩
    · by_cases room : (state.workers worker).HasRoom
      · apply advances_of_call servable.alive safe careful
        simp only [callStep, at_phase, feedStep, down, room, if_true]
        exact ⟨_, rfl⟩
      · cases holders : (state.workers worker).permits with
        | nil =>
            refine works (Bool.eq_false_iff.mpr down) fun _ empty => room ?_
            simp [Worker.HasRoom, empty, holders, inboxCapacity]
        | cons holder rest =>
            obtain ⟨_, _, pushing⟩ := (servable.permitted.holder worker holder).mp
              (by simp [holders])
            refine advances_of_push servable.alive ?_ pushing passing
            rintro rfl
            rw [at_phase] at pushing
            cases pushing

/-- A feed task advances by itself, through its worker or through its client. -/
theorem Servable.advances_stage (servable : Servable config index state)
    (buffer : 0 < config.streamBufferSize) {remaining : Nat} {stage : Stage}
    (at_phase : (state.calls index).phase = .feeding remaining stage)
    (fresh : ∀ worker, (state.calls index).phase.awaited = some worker →
      ¬ (state.workers worker).Starved) : Advances config index state := by
  have stream : (state.calls index).hasStream = true := by simp [Call.hasStream, at_phase]
  have connected := servable.waits.connected
  have here := servable.owned index
  simp only [CallOwned, at_phase] at here
  cases stage with
  | top =>
      apply advances_of_call servable.alive (by simp [MayHandOver, at_phase]) (by simp [at_phase])
      simp only [callStep, at_phase, feedStep]
      split <;> exact ⟨_, rfl⟩
  | checking chunkSize =>
      apply advances_of_call servable.alive (by simp [MayHandOver, at_phase]) (by simp [at_phase])
      simp only [callStep, at_phase, feedStep]
      split <;> exact ⟨_, rfl⟩
  | picking chunkSize =>
      apply advances_of_call servable.alive (by simp [MayHandOver, at_phase]) (by simp [at_phase])
      simp only [callStep, at_phase, feedStep]
      exact ⟨_, rfl⟩
  | sending worker chunkSize =>
      exact servable.advances_sending at_phase (fresh worker (by rw [at_phase]; rfl))
  | pushing worker chunkSize =>
      have safe : MayHandOver config state.workers (state.calls index).phase := by
        rw [at_phase]
        by_contra loses
        exact servable.led ⟨remaining, worker, chunkSize, at_phase, Or.inr loses⟩
      apply advances_of_call servable.alive safe (by simp [at_phase])
      simp only [callStep, at_phase, feedStep]
      exact ⟨_, rfl⟩
  | receiving channel =>
      by_cases waits : channel.queue = [] ∧ channel.sender ≠ .dropped
      · refine advances_of_work servable.alive (fresh channel.worker (by rw [at_phase]; rfl))
          (by simp [CallPhase.Pushes, at_phase])
          (here.2.worker_moves servable.inv here.1 waits.2 fun member => ?_)
        apply Bool.eq_false_iff.mpr
        intro down
        exact servable.reachable (servable.inv.stranded down member)
      · apply advances_of_call servable.alive (by simp [MayHandOver, at_phase])
          (by simp [at_phase])
        simp only [callStep, at_phase, feedStep]
        cases queue : channel.queue with
        | nil =>
            rw [queue] at waits
            simp only [true_and, not_not] at waits
            simp only [waits, if_true]
            exact ⟨_, rfl⟩
        | cons chunk rest => exact ⟨_, rfl⟩
  | forwarding channel chunk =>
      by_cases room : (state.calls index).resp.length < config.streamBufferSize
      · apply advances_of_call servable.alive (by simp [MayHandOver, at_phase])
          (by simp [at_phase])
        simp only [callStep, at_phase, feedStep, connected, Bool.not_true, Bool.false_eq_true,
          if_false, room, if_true]
        exact ⟨_, rfl⟩
      · exact advances_of_receive servable.alive stream connected (resp_ne_nil buffer room)
  | failing error =>
      by_cases room : (state.calls index).resp.length < config.streamBufferSize
      · apply advances_of_call servable.alive (by simp [MayHandOver, at_phase])
          (by simp [at_phase])
        simp only [callStep, at_phase, feedStep, connected, Bool.not_true, Bool.false_eq_true,
          if_false, room, if_true]
        exact ⟨_, rfl⟩
      · exact advances_of_receive servable.alive stream connected (resp_ne_nil buffer room)

/-- A stream that has not ended has a step that brings it closer to its end. -/
theorem Servable.advances (servable : Servable config index state)
    (buffer : 0 < config.streamBufferSize) (goes : ¬ (state.calls index).Ended)
    (fresh : ¬ OutOfIds state index) : Advances config index state := by
  have live := servable.waits.live
  unfold Live at live
  cases at_phase : (state.calls index).phase with
  | absent => simp [at_phase] at live
  | rejected error => simp [at_phase] at live
  | panicked => simp [at_phase] at live
  | arrived =>
      apply advances_of_call servable.alive (by simp [MayHandOver, at_phase]) (by simp [at_phase])
      simp only [callStep, at_phase]
      split <;> exact ⟨_, rfl⟩
  | checked =>
      apply advances_of_call servable.alive (by simp [MayHandOver, at_phase]) (by simp [at_phase])
      simp only [callStep, at_phase]
      split
      · exact ⟨_, rfl⟩
      · split <;> exact ⟨_, rfl⟩
  | counted =>
      apply advances_of_call servable.alive (by simp [MayHandOver, at_phase]) (by simp [at_phase])
      simp only [callStep, at_phase]
      split <;> exact ⟨_, rfl⟩
  | returned =>
      apply advances_of_call servable.alive (by simp [MayHandOver, at_phase]) (by simp [at_phase])
      simp only [callStep, at_phase]
      exact ⟨_, rfl⟩
  | done =>
      refine advances_of_receive servable.alive (by simp [Call.hasStream, at_phase])
        servable.waits.connected fun drained => ?_
      exact goes ⟨servable.waits.connected, Or.inr at_phase, drained⟩
  | feeding remaining stage =>
      exact servable.advances_stage buffer at_phase fun worker awaited starved =>
        fresh ⟨worker, awaited, starved⟩

/-! ## Whole runs -/

theorem Serving.safe {label : Label} (serving : Serving config index state label) :
    Safe config state label := by
  cases label with
  | call other => exact serving.2
  | _ => trivial

theorem CallMoves.live {call next : Call} {inflight : BitVec 64} {nextWorker : Nat}
    (buffer : 0 < config.streamBufferSize)
    (moves : CallMoves config state call next inflight nextWorker)
    (live : Live config state.shutdown call) : Live config state.shutdown next := by
  unfold Live at live
  cases moves with
  | refuse at_phase down =>
      simp only [at_phase] at live
      rw [down] at live
      cases live.1
  | check at_phase up =>
      simp only [at_phase] at live
      exact live.2
  | zero at_phase none =>
      simp only [at_phase] at live
      omega
  | tooMany at_phase _ many =>
      simp only [at_phase] at live
      omega
  | count at_phase _ _ =>
      simp only [at_phase] at live
      exact live.2
  | burst at_phase capacity =>
      simp only [at_phase] at live
      exact absurd ⟨buffer, live⟩ capacity
  | _ => trivial

theorem Waits.mapChannel {shutdown : Bool} {call : Call} (waits : Waits config shutdown call)
    (number : Nat) (change : ChunkChannel → ChunkChannel) :
    Waits config shutdown (call.mapChannel number change) := by
  rcases call.mapChannel_cases number change with
    ⟨_, same⟩ | ⟨remaining, channel, _, _, mapped⟩ |
      ⟨remaining, channel, chunk, _, _, mapped⟩
  · rwa [same]
  · rw [mapped]
    exact ⟨trivial, waits.connected⟩
  · rw [mapped]
    exact ⟨trivial, waits.connected⟩

/-- A step that serves a call keeps it waiting. -/
theorem Waits.step (buffer : 0 < config.streamBufferSize)
    (waits : Waits config state.shutdown (state.calls index)) {label : Label} {next : State}
    (serving : Serving config index state label)
    (stepped : Server.step config state label = some next) :
    Waits config next.shutdown (next.calls index) := by
  have update : ∀ other call, (other = index → Waits config state.shutdown call) →
      Waits config state.shutdown (Function.update state.calls other call index) := by
    intro other call after
    by_cases same : index = other
    · subst same
      rw [Function.update_self]
      exact after rfl
    · rw [Function.update_of_ne same]
      exact waits
  have moves := moves_of_step stepped
  cases label with
  | arrive | disconnect | abort | manage => exact serving.elim
  | call other =>
      cases moves with
      | call _ after inflight nextWorker moves =>
          refine update other after ?_
          rintro rfl
          refine ⟨moves.live buffer waits.live, ?_⟩
          cases moves <;> exact waits.connected
      | reserve _ remaining worker chunkSize | send _ remaining worker chunkSize =>
          refine update other _ ?_
          rintro rfl
          exact ⟨trivial, waits.connected⟩
  | receive other =>
      obtain rfl := serving
      cases moves with
      | receive _ item resp stream connected waiting =>
          simp only [State.setCall, Function.update_self]
          exact ⟨waits.live, waits.connected⟩
  | work worker now =>
      rw [moves.work_frame.1]
      exact moves.work_calls (fun _ number change waits => waits.mapChannel number change) waits

theorem phase_setWorker (state : State) {owner : Nat} {worker : Worker}
    (phase : worker.phase = (state.workers owner).phase) (other : Nat) :
    ((state.setWorker owner worker).workers other).phase = (state.workers other).phase := by
  by_cases isOwner : other = owner
  · simp only [isOwner, State.setWorker, Function.update_self, phase]
  · simp only [State.setWorker, Function.update_of_ne isOwner]

/-- A step towards the end of a stream does not strand it. -/
theorem Advance.not_stranded (inv : Inv config state) (reachable : ¬ Stranded state index)
    (led : ¬ Misled config state index) {label : Label} {next : State}
    (advance : Advance config index state label next) : ¬ Stranded next index := by
  rintro ⟨remaining, channel, _, _, _, down, member⟩
  have moves := moves_of_step advance.stepped
  have serving := advance.serving
  cases label with
  | arrive | disconnect | abort | manage => exact serving.elim
  | receive other =>
      cases moves with
      | receive => exact reachable (inv.stranded down member)
  | work worker now =>
      obtain ⟨wasDown, was⟩ := moves.work_leaves down member
      exact reachable (inv.stranded wasDown was)
  | call other =>
      cases moves with
      | call => exact reachable (inv.stranded down member)
      | reserve _ _ worker =>
          simp only [State.setWorker, State.setCall] at down member
          by_cases same : channel.worker = worker
          · rw [same, Function.update_self] at down member
            exact reachable (inv.stranded down member)
          · rw [Function.update_of_ne same] at down member
            exact reachable (inv.stranded down member)
      | send _ rest worker chunkSize at_phase =>
          simp only [State.setWorker, State.setCall] at down member
          by_cases same : channel.worker = worker
          · rw [same, Function.update_self] at down member
            rcases List.mem_append.mp member with earlier | last
            · exact reachable (inv.stranded down earlier)
            · have isIndex : index = other :=
                congrArg StreamRequest.call (WorkRequest.stream.inj (List.mem_singleton.mp last))
              subst isIndex
              exact led ⟨rest, worker, chunkSize, at_phase, Or.inl down⟩
          · rw [Function.update_of_ne same] at down member
            exact reachable (inv.stranded down member)

/-- Nor does it get a permit that is of no use. -/
theorem Advance.not_misled (led : ¬ Misled config state index) {label : Label} {next : State}
    (advance : Advance config index state label next) : ¬ Misled config next index := by
  rintro ⟨remaining, worker, chunkSize, pushing, bad⟩
  have moves := moves_of_step advance.stepped
  have serving := advance.serving
  -- a permit of a worker whose phase is as before is as good as before
  have kept : (next.workers worker).phase = (state.workers worker).phase →
      (state.calls index).phase ≠ .feeding remaining (.pushing worker chunkSize) := by
    intro phase before
    simp only [Worker.isDown, MayHandOver, phase] at bad
    exact led ⟨remaining, worker, chunkSize, before, bad⟩
  cases label with
  | arrive | disconnect | abort | manage => exact serving.elim
  | receive other =>
      obtain rfl := serving
      cases moves with
      | receive =>
          simp only [State.setCall, Function.update_self] at pushing
          exact kept rfl pushing
  | work other now =>
      have stable : ∀ call number change, ¬ call.phase.Pushes worker →
          ¬ (Call.mapChannel call number change).phase.Pushes worker := by
        intro call number change
        rw [Call.pushes_mapChannel]
        exact id
      have idle := advance.pushesFirst other now rfl worker
      exact moves.work_calls stable idle ⟨remaining, chunkSize, pushing⟩
  | call other =>
      by_cases same : index = other
      · subst same
        cases moves with
        | call _ after _ _ moves =>
            simp only [State.setCall, Function.update_self] at pushing
            exact (moves.not_pushes worker).2 ⟨remaining, chunkSize, pushing⟩
        | reserve _ rest owner size at_phase up room =>
            simp only [State.setWorker, State.setCall, Function.update_self] at pushing bad
            cases pushing
            have settled := advance.careful rfl _ _ _ at_phase
            rw [Worker.Passing, not_or] at settled
            simp only [Worker.isDown, MayHandOver, Function.update_self] at bad up
            rcases bad with down | loses
            · rw [up] at down
              cases down
            · exact loses ⟨fun starting => absurd starting settled.1,
                fun stopping => absurd stopping settled.2⟩
        | send _ rest owner size at_phase =>
            simp only [State.setWorker, State.setCall, Function.update_self] at pushing
            cases pushing
      · cases moves with
        | call =>
            simp only [State.setCall, Function.update_of_ne same] at pushing
            exact kept rfl pushing
        | reserve | send =>
            simp only [State.setWorker, State.setCall, Function.update_of_ne same] at pushing
            exact kept (phase_setWorker (state.setCall _ _) (by rfl) worker) pushing

theorem Advance.servable (checked : config.Checked) (buffer : 0 < config.streamBufferSize)
    (servable : Servable config index state) {label : Label} {next : State}
    (advance : Advance config index state label next) : Servable config index next where
  inv := servable.inv.step checked servable.permitted advance.serving.safe advance.stepped
  permitted := servable.permitted.step servable.inv.absent advance.stepped
  owned := servable.owned.step checked servable.inv advance.stepped
  alive := alive_of_step advance.stepped (by rintro other rfl; exact advance.serving)
  reachable := advance.not_stranded servable.inv servable.reachable servable.led
  led := advance.not_misled servable.led
  waits := servable.waits.step buffer advance.serving advance.stepped

/-- Steps that serve a call lead to the end of its stream, unless the worker that it waits
for runs out of IDs first. -/
def CanEnd (config : ServerConfig) (index : Nat) (state : State) : Prop :=
  ∃ labels final, Transition.Meets (step config) (Serving config index) state labels ∧
    Transition.run (step config) state labels = some final ∧
    ((final.calls index).Ended ∨ OutOfIds final index)

/-- There is a way to the end of every stream whose request has not been lost. -/
theorem Servable.canEnd (checked : config.Checked) (positive : 0 < config.idsPerChunk)
    (buffer : 0 < config.streamBufferSize) (servable : Servable config index state) :
    CanEnd config index state := by
  have advances : ∀ state, Servable config index state →
      ¬ ((state.calls index).Ended ∨ OutOfIds state index) →
      ∃ label next, Serving config index state label ∧
        Server.step config state label = some next ∧ Servable config index next ∧
        weight config next < weight config state := by
    intro state servable notYet
    rw [not_or] at notYet
    obtain ⟨label, next, advance⟩ := servable.advances buffer notYet.1 notYet.2
    refine ⟨label, next, advance.serving, advance.stepped,
      advance.servable checked buffer servable, ?_⟩
    refine weight_lt_of_present positive (fun _ => servable.inv.lt_arrivals) advance.stepped
      ?_ ?_ advance.active
    · rintro count rfl
      exact advance.serving
    · rintro other rfl
      exact advance.serving
  obtain ⟨labels, final, meets, ran, _, goal⟩ :=
    Transition.run_reaches (weight config) _ _ advances servable
  exact ⟨labels, final, meets, ran, goal⟩

end Stream

end Ferroid.Server
