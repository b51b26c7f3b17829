import Mathlib.Algebra.BigOperators.Ring.List
import Ferroid.Server.Delivery
import Ferroid.Server.Wiring

/-!
Contract: what the server can have in memory for one client.

Owns the bounds of the response channel, of the chunk channels, of the inboxes and of
the workers' buffers, over every run, that no two workers have requests of one client, and
what they say together: a client that reads slowly holds back a bounded number of IDs,
whatever it has asked for.

Does not own how many clients there are; nothing limits them.
-/

namespace Ferroid.Server

open Ferroid.Id
open Ferroid.Generator
open Ferroid.Library

/-! ## Bounds -/

/-- A chunk channel within its capacity, with chunks no larger than a buffer. -/
structure ChunkChannel.Fits (config : ServerConfig) (channel : ChunkChannel) : Prop where
  capacity : channel.queue.length ≤ chunkCapacity
  chunks : ∀ chunk ∈ channel.queue, chunk.length ≤ config.chunkBytes

def Stage.Fits (config : ServerConfig) : Stage → Prop
  | .receiving channel => channel.Fits config
  | .forwarding channel chunk => channel.Fits config ∧ chunk.length ≤ config.chunkBytes
  | _ => True

def CallPhase.Fits (config : ServerConfig) : CallPhase → Prop
  | .feeding _ stage => stage.Fits config
  | _ => True

structure Call.Fits (config : ServerConfig) (call : Call) : Prop where
  capacity : call.resp.length ≤ config.streamBufferSize
  chunks : ∀ chunk, Item.chunk chunk ∈ call.resp → chunk.length ≤ config.chunkBytes
  phase : call.phase.Fits config

/-- Bytes that a worker waits to send. -/
def Point.bytes : Point → IdChunk
  | .sendingFull bytes | .sendingRest bytes => bytes
  | .generating | .checking => []

structure Worker.Fits (config : ServerConfig) (worker : Worker) : Prop where
  buffer : worker.buff.length ≤ config.chunkBytes
  sending : ∀ job, worker.phase = .handling job → job.point.bytes.length ≤ config.chunkBytes

section Calls

variable {config : ServerConfig} {state next : State} {call after : Call}

/-- A call whose feed task has no channel. -/
theorem Call.Fits.rephase (fits : call.Fits config) {phase : CallPhase}
    (empty : phase.Fits config) : ({ call with phase := phase } : Call).Fits config :=
  ⟨fits.capacity, fits.chunks, empty⟩

theorem CallMoves.fits {inflight : BitVec 64} {nextWorker : Nat}
    (moves : CallMoves config state call after inflight nextWorker)
    (fits : call.Fits config) : after.Fits config := by
  have phase := fits.phase
  cases moves with
  | refuse | check | zero | tooMany | count | spawn | burst | complete | cancelled | proceed
  | pick | down | drained | giveUp | leave => exact fits.rephase trivial
  | cut => exact ⟨fits.capacity, fits.chunks, trivial⟩
  | take remaining channel chunk queue at_phase waiting =>
      rw [at_phase] at phase
      obtain ⟨capacity, chunks⟩ := phase
      rw [waiting] at capacity chunks
      refine fits.rephase ⟨⟨?_, fun other member => ?_⟩, ?_⟩
      · exact Nat.le_of_succ_le capacity
      · exact chunks other (List.mem_cons_of_mem _ member)
      · exact chunks chunk List.mem_cons_self
  | forward remaining channel chunk at_phase connected room =>
      rw [at_phase] at phase
      refine ⟨?_, fun other member => ?_, phase.1⟩
      · rw [List.length_append]
        exact room
      · rcases List.mem_append.mp member with earlier | last
        · exact fits.chunks other earlier
        · cases List.mem_singleton.mp last
          exact phase.2
  | fail remaining error at_phase connected room =>
      refine ⟨?_, fun other member => ?_, trivial⟩
      · rw [List.length_append]
        exact room
      · rcases List.mem_append.mp member with earlier | last
        · exact fits.chunks other earlier
        · cases List.mem_singleton.mp last

/-- A change that keeps the channel within its bounds. -/
theorem Call.Fits.mapChannel (fits : call.Fits config) (number : Nat)
    {change : ChunkChannel → ChunkChannel}
    (stays : ∀ channel, call.channel? number = some channel → channel.Fits config →
      (change channel).Fits config) : (call.mapChannel number change).Fits config := by
  have phase := fits.phase
  rcases call.mapChannel_cases number change with
    ⟨_, same⟩ | ⟨remaining, channel, isNumber, at_phase, mapped⟩ |
      ⟨remaining, channel, chunk, isNumber, at_phase, mapped⟩
  · rwa [same]
  · rw [mapped]
    rw [at_phase] at phase
    apply fits.rephase
    exact stays channel (channel?_eq_some.mpr ⟨isNumber, remaining, Or.inl at_phase⟩) phase
  · rw [mapped]
    rw [at_phase] at phase
    apply fits.rephase
    exact ⟨stays channel (channel?_eq_some.mpr ⟨isNumber, remaining, Or.inr ⟨chunk, at_phase⟩⟩)
      phase.1, phase.2⟩

end Calls

/-! ## Workers -/

section Workers

variable {config : ServerConfig} {state : State} {now : ServerLayout.Ty} {worker after : Worker}

/-- A worker that waits to send nothing. -/
theorem Worker.Fits.idle (fits : worker.Fits config) (buff : after.buff = worker.buff)
    (idle : ∀ job, after.phase = .handling job → job.point.bytes = []) : after.Fits config := by
  refine ⟨buff ▸ fits.buffer, fun job at_phase => ?_⟩
  rw [idle job at_phase]
  exact Nat.zero_le _

theorem WorkMoves.fits (moves : WorkMoves config state now worker after)
    (fits : worker.Fits config) : after.Fits config := by
  cases moves with
  | start =>
      refine ⟨Nat.le_of_eq (List.length_replicate ..), fun job at_phase => ?_⟩
      cases at_phase
  | takeShutdown =>
      refine fits.idle rfl fun job at_phase => ?_
      cases at_phase
  | pause => exact ⟨fits.buffer, fits.sending⟩
  | write job id at_phase generating more ready inBounds =>
      constructor
      · have length := fits.buffer
        simp only [List.length_append, List.length_take, length_toLeBytes, List.length_drop]
        omega
      · intro other handling
        cases handling
        split <;> exact Nat.zero_le _
  | rest job at_phase =>
      refine ⟨fits.buffer, fun other handling => ?_⟩
      cases handling
      exact Nat.le_trans (List.length_take_le' _ _) fits.buffer
  | full job at_phase =>
      refine ⟨fits.buffer, fun other handling => ?_⟩
      cases handling
      exact fits.buffer

end Workers

/-! ## Whole runs -/

/-- The bounds of a whole state. -/
structure State.Fits (config : ServerConfig) (state : State) : Prop where
  calls : ∀ index, (state.calls index).Fits config
  workers : ∀ index, (state.workers index).Fits config

section Run

variable {config : ServerConfig} {state next : State}

/-- A call that has not started fits. -/
theorem fits_fresh (count : Nat) (phase : CallPhase) (fits : phase.Fits config) :
    ({ Call.absent with count := count, phase := phase } : Call).Fits config :=
  ⟨Nat.zero_le _, by simp [Call.absent], fits⟩

theorem fits_initial (config : ServerConfig) : (initial config).Fits config where
  calls _ := fits_fresh 0 .absent trivial
  workers _ := ⟨Nat.zero_le _, by simp [initial]⟩

/-- One call changes. -/
theorem State.Fits.updateCall (fits : state.Fits config) {index : Nat} {call : Call}
    (after : call.Fits config) : ∀ other,
      (Function.update state.calls index call other).Fits config := by
  rw [Function.forall_update_iff state.calls fun _ call => call.Fits config]
  exact ⟨after, fun other _ => fits.calls other⟩

/-- One worker changes. -/
theorem State.Fits.updateWorker (fits : state.Fits config) {index : Nat} {worker : Worker}
    (after : worker.Fits config) : ∀ other,
      (Function.update state.workers index worker other).Fits config := by
  rw [Function.forall_update_iff state.workers fun _ worker => worker.Fits config]
  exact ⟨after, fun other _ => fits.workers other⟩

theorem State.Fits.mapChannel (fits : state.Fits config) (request : StreamRequest)
    {change : ChunkChannel → ChunkChannel}
    (stays : ∀ channel, (state.calls request.call).channel? request.channel = some channel →
      channel.Fits config → (change channel).Fits config) :
    (state.mapChannel request change).Fits config :=
  ⟨fits.updateCall ((fits.calls request.call).mapChannel _ stays), fits.workers⟩

theorem State.Fits.drop (fits : state.Fits config) (request : StreamRequest) :
    (state.mapChannel request .drop).Fits config :=
  fits.mapChannel request fun _ _ channel => ⟨channel.capacity, channel.chunks⟩

theorem State.Fits.dropInbox (fits : state.Fits config) (inbox : List WorkRequest) :
    (state.dropInbox inbox).Fits config := by
  induction inbox generalizing state with
  | nil => exact fits
  | cons work rest inductionHypothesis =>
      cases work with
      | stream request => exact inductionHypothesis (fits.drop request)
      | shutdown => exact inductionHypothesis fits

/-- A chunk is sent only into a channel with room for it. -/
theorem State.Fits.push (fits : state.Fits config) {request : StreamRequest} {bytes : IdChunk}
    (room : state.queued request < chunkCapacity) (small : bytes.length ≤ config.chunkBytes) :
    (state.mapChannel request (.push bytes)).Fits config := by
  apply fits.mapChannel request
  intro channel found before
  rw [State.queued, found] at room
  refine ⟨?_, fun chunk member => ?_⟩
  · simp only [ChunkChannel.push, List.length_append, List.length_singleton]
    exact room
  · rcases List.mem_append.mp member with earlier | last
    · exact before.chunks chunk earlier
    · rw [List.mem_singleton.mp last]
      exact small

theorem State.Fits.step {label : Label} (fits : state.Fits config)
    (stepped : Server.step config state label = some next) : next.Fits config := by
  cases moves_of_step stepped with
  | arrive count bound =>
      exact ⟨fits.updateCall (fits_fresh count .arrived trivial), fits.workers⟩
  | call index after inflight nextWorker moves =>
      exact ⟨fits.updateCall (moves.fits (fits.calls index)), fits.workers⟩
  | reserve index remaining worker chunkSize =>
      have target := fits.workers worker
      exact ⟨fits.updateCall ((fits.calls index).rephase trivial),
        fits.updateWorker ⟨target.buffer, target.sending⟩⟩
  | send index remaining worker chunkSize at_phase =>
      have target := fits.workers worker
      refine ⟨fits.updateCall ((fits.calls index).rephase ⟨Nat.zero_le _, ?_⟩),
        fits.updateWorker ⟨target.buffer, target.sending⟩⟩
      intro chunk member
      cases member
  | receive index item resp stream connected waiting =>
      obtain ⟨capacity, chunks, phase⟩ := fits.calls index
      rw [waiting] at capacity chunks
      refine ⟨fits.updateCall ⟨Nat.le_of_succ_le capacity, ?_, phase⟩, fits.workers⟩
      intro chunk member
      exact chunks chunk (List.mem_cons_of_mem _ member)
  | disconnect index stream connected =>
      refine ⟨fits.updateCall ⟨Nat.zero_le _, ?_, (fits.calls index).phase⟩, fits.workers⟩
      intro chunk member
      cases member
  | work index now after known moves =>
      exact ⟨fits.calls, fits.updateWorker (moves.fits (fits.workers index))⟩
  | allocationPanic index now | stop index now =>
      have left := fits.dropInbox (state.workers index).inbox
      refine ⟨left.calls, left.updateWorker ((fits.workers index).idle rfl ?_)⟩
      intro job at_phase
      cases at_phase
  | indexPanic index now job =>
      have left := (fits.drop job.request).dropInbox (state.workers index).inbox
      refine ⟨left.calls, left.updateWorker ((fits.workers index).idle rfl ?_)⟩
      intro job at_phase
      cases at_phase
  | takeStream index now request inbox known at_phase waiting =>
      have held : (state.mapChannel request .hold).Fits config :=
        fits.mapChannel request fun _ _ channel => ⟨channel.capacity, channel.chunks⟩
      refine ⟨held.calls, held.updateWorker ((fits.workers index).idle rfl ?_)⟩
      intro job handling
      cases handling
      rfl
  | finish index now job known at_phase =>
      have dropped := fits.drop job.request
      refine ⟨dropped.calls, dropped.updateWorker ((fits.workers index).idle rfl ?_)⟩
      intro other handling
      cases handling
  | pushFull index now job bytes known at_phase sending alive room =>
      have small := (fits.workers index).sending job at_phase
      rw [sending] at small
      have pushed := fits.push room small
      refine ⟨pushed.calls, pushed.updateWorker ((fits.workers index).idle rfl ?_)⟩
      intro other handling
      cases handling
      rfl
  | pushRest index now job bytes known at_phase sending alive room =>
      have small := (fits.workers index).sending job at_phase
      rw [sending] at small
      have dropped := (fits.push room small).drop job.request
      refine ⟨dropped.calls, dropped.updateWorker ((fits.workers index).idle rfl ?_)⟩
      intro other handling
      cases handling
  | notify timeout index at_phase known up room =>
      have target := fits.workers index
      exact ⟨fits.calls, fits.updateWorker ⟨target.buffer, target.sending⟩⟩
  | abort | beginShutdown | drain | cancel | skip | finishShutdown =>
      exact ⟨fits.calls, fits.workers⟩

theorem State.Fits.run {labels : List Label}
    (ran : Transition.run (Server.step config) (initial config) labels = some state) :
    state.Fits config :=
  Transition.run_invariant_always (State.Fits config)
    (fun _ _ _ fits stepped => fits.step stepped) (fits_initial config) ran

end Run

/-! ## One request at a time -/

def WorkRequest.isOf (index : Nat) : WorkRequest → Bool
  | .stream request => request.call == index
  | .shutdown => false

def WorkerPhase.requestsOf (index : Nat) : WorkerPhase → Nat
  | .handling job => if job.request.call = index then 1 else 0
  | _ => 0

/-- The requests of one call at a worker, queued and at work. -/
def Worker.requestsOf (index : Nat) (worker : Worker) : Nat :=
  worker.inbox.countP (WorkRequest.isOf index) + worker.phase.requestsOf index

/-- The requests that a feed task can give out now or later without waiting for a worker
to drop one. -/
def Stage.owed : Stage → Nat
  | .receiving channel | .forwarding channel _ => if channel.sender = .dropped then 1 else 0
  | _ => 1

def CallPhase.owed : CallPhase → Nat
  | .feeding _ stage => stage.owed
  | .rejected _ | .panicked | .returned | .done => 0
  | .absent | .arrived | .checked | .counted => 1

/-- A call has its one request, or one worker does. -/
def Lone (config : ServerConfig) (state : State) : Prop :=
  ∀ index, (state.calls index).phase.owed +
    total (Worker.requestsOf index) config.numWorkers state.workers ≤ 1

section Requests

variable {config : ServerConfig} {state next : State} {call after : Call}

theorem CallPhase.owed_le_one (phase : CallPhase) : phase.owed ≤ 1 := by
  cases phase with
  | feeding remaining stage =>
      cases stage with
      | receiving channel | forwarding channel chunk =>
          simp only [CallPhase.owed, Stage.owed]
          split <;> omega
      | _ => exact Nat.le_refl 1
  | _ => simp [CallPhase.owed]

theorem CallMoves.owed {inflight : BitVec 64} {nextWorker : Nat}
    (moves : CallMoves config state call after inflight nextWorker) :
    after.phase.owed ≤ call.phase.owed := by
  cases moves with
  | drained remaining channel at_phase empty dropped =>
      rw [at_phase]
      simp [CallPhase.owed, Stage.owed, dropped]
  | refuse at_phase | check at_phase | zero at_phase | tooMany at_phase | count at_phase
  | spawn at_phase | burst at_phase | cut _ at_phase | complete at_phase
  | cancelled _ _ at_phase | proceed _ _ at_phase | pick _ _ at_phase | down _ _ _ at_phase
  | take _ _ _ _ at_phase | forward _ _ _ at_phase | fail _ _ at_phase | giveUp _ _ at_phase
  | leave at_phase =>
      rw [at_phase]
      simp [CallPhase.owed, Stage.owed]

/-- A change of a channel that does not drop its sender. -/
theorem Call.owed_mapChannel (call : Call) (number : Nat) {change : ChunkChannel → ChunkChannel}
    (keeps : ∀ channel, (change channel).sender = .dropped → channel.sender = .dropped) :
    (call.mapChannel number change).phase.owed ≤ call.phase.owed := by
  have stage : ∀ channel : ChunkChannel,
      (if (change channel).sender = .dropped then 1 else 0) ≤
        if channel.sender = .dropped then 1 else 0 := by
    intro channel
    by_cases dropped : (change channel).sender = .dropped
    · rw [if_pos dropped, if_pos (keeps channel dropped)]
    · rw [if_neg dropped]
      exact Nat.zero_le _
  rcases call.mapChannel_cases number change with
    ⟨_, same⟩ | ⟨remaining, channel, _, at_phase, mapped⟩ |
      ⟨remaining, channel, chunk, _, at_phase, mapped⟩
  · rw [same]
  · rw [mapped, at_phase]
    exact stage channel
  · rw [mapped, at_phase]
    exact stage channel

theorem owed_state_mapChannel (state : State) (request : StreamRequest)
    {change : ChunkChannel → ChunkChannel}
    (keeps : ∀ channel, (change channel).sender = .dropped → channel.sender = .dropped)
    (index : Nat) :
    ((state.mapChannel request change).calls index).phase.owed ≤
      (state.calls index).phase.owed := by
  by_cases same : index = request.call
  · rw [same]
    simp only [State.mapChannel, State.setCall, Function.update_self]
    exact Call.owed_mapChannel _ _ keeps
  · simp only [State.mapChannel, State.setCall, Function.update_of_ne same, Nat.le_refl]

/-- A dropped sender gives the request back to the call that made it. -/
theorem owed_drop (state : State) (request : StreamRequest) (index : Nat) :
    ((state.mapChannel request .drop).calls index).phase.owed ≤
      (state.calls index).phase.owed + if request.call = index then 1 else 0 := by
  by_cases same : request.call = index
  · rw [if_pos same]
    exact Nat.le_trans (CallPhase.owed_le_one _) (Nat.le_add_left _ _)
  · simp only [State.mapChannel, State.setCall, Function.update_of_ne (Ne.symm same),
      Nat.le_add_right]

theorem owed_dropInbox (state : State) (inbox : List WorkRequest) (index : Nat) :
    ((state.dropInbox inbox).calls index).phase.owed ≤
      (state.calls index).phase.owed + inbox.countP (WorkRequest.isOf index) := by
  induction inbox generalizing state with
  | nil => exact Nat.le_refl _
  | cons work rest inductionHypothesis =>
      cases work with
      | stream request =>
          have dropped := owed_drop state request index
          have later := inductionHypothesis (state.mapChannel request .drop)
          rw [List.countP_cons]
          simp only [WorkRequest.isOf, beq_iff_eq]
          show (((state.mapChannel request .drop).dropInbox rest).calls index).phase.owed ≤ _
          omega
      | shutdown =>
          rw [List.countP_cons]
          exact inductionHypothesis state

theorem WorkMoves.requestsOf {now : ServerLayout.Ty} {before after : Worker}
    (moves : WorkMoves config state now before after) (index : Nat) :
    after.requestsOf index = before.requestsOf index := by
  cases moves with
  | start at_phase => simp [Worker.requestsOf, at_phase, WorkerPhase.requestsOf]
  | takeShutdown inbox at_phase waiting =>
      simp [Worker.requestsOf, at_phase, waiting, WorkerPhase.requestsOf, WorkRequest.isOf]
  | pause => rfl
  | write job id at_phase | rest job at_phase | full job at_phase =>
      simp [Worker.requestsOf, at_phase, WorkerPhase.requestsOf]

/-- Only a call changes, and does not get a request back. -/
theorem Lone.updateCall (lone : Lone config state) {index : Nat}
    (calls : next.calls = Function.update state.calls index call)
    (workers : next.workers = state.workers)
    (owed : call.phase.owed ≤ (state.calls index).phase.owed) : Lone config next := by
  intro other
  have before := lone other
  rw [calls, workers]
  by_cases same : other = index
  · rw [same] at before ⊢
    rw [Function.update_self]
    omega
  · rwa [Function.update_of_ne same]

/-- A worker changes; what it has of a call and what the call is owed do not grow together. -/
theorem Lone.updateWorker (lone : Lone config state) {worker : Nat} {after : Worker}
    (known : worker < config.numWorkers)
    (workers : next.workers = Function.update state.workers worker after)
    (balance : ∀ index, (next.calls index).phase.owed + after.requestsOf index ≤
      (state.calls index).phase.owed + (state.workers worker).requestsOf index) :
    Lone config next := by
  intro index
  have before := lone index
  have bound := balance index
  have changed : total (Worker.requestsOf index) config.numWorkers
        (Function.update state.workers worker after) + (state.workers worker).requestsOf index =
      total (Worker.requestsOf index) config.numWorkers state.workers + after.requestsOf index :=
    total_update_of_lt known
  rw [workers]
  omega

/-- A worker changes, if it exists, and keeps its requests. -/
theorem total_requestsOf_update (config : ServerConfig) {worker : Nat} {after : Worker}
    {index : Nat} (same : after.requestsOf index = (state.workers worker).requestsOf index) :
    total (Worker.requestsOf index) config.numWorkers
        (Function.update state.workers worker after) =
      total (Worker.requestsOf index) config.numWorkers state.workers := by
  apply total_congr
  intro other
  by_cases isWorker : other = worker
  · rw [isWorker, Function.update_self, same]
  · rw [Function.update_of_ne isWorker]

/-- A request goes from its call to a worker. -/
theorem Lone.send (lone : Lone config state) {index remaining worker chunkSize : Nat}
    (at_phase : (state.calls index).phase = .feeding remaining (.pushing worker chunkSize))
    {channel : ChunkChannel} (queued : channel.sender = .queued) {after : Worker}
    (calls : next.calls = Function.update state.calls index
      { state.calls index with phase := .feeding remaining (.receiving channel) })
    (workers : next.workers = Function.update state.workers worker after)
    (here : after.requestsOf index = (state.workers worker).requestsOf index + 1)
    (elsewhere : ∀ other, other ≠ index →
      after.requestsOf other = (state.workers worker).requestsOf other) : Lone config next := by
  intro other
  have before := lone other
  rw [calls, workers]
  by_cases same : other = index
  · rw [same] at before ⊢
    have grows : total (Worker.requestsOf index) config.numWorkers
          (Function.update state.workers worker after) ≤
        total (Worker.requestsOf index) config.numWorkers state.workers + 1 :=
      total_update_le (Nat.le_of_eq here)
    rw [at_phase] at before
    simp only [CallPhase.owed, Stage.owed] at before
    simp only [Function.update_self, CallPhase.owed, Stage.owed, queued, reduceCtorEq, if_false]
    omega
  · rwa [Function.update_of_ne same, total_requestsOf_update config (elsewhere other same)]

/-- A worker changes and keeps its requests, and no call gets one back. -/
theorem Lone.keep (lone : Lone config state) {worker : Nat} {after : Worker}
    (workers : next.workers = Function.update state.workers worker after)
    (same : ∀ index, after.requestsOf index = (state.workers worker).requestsOf index)
    (owed : ∀ index, (next.calls index).phase.owed ≤ (state.calls index).phase.owed) :
    Lone config next := by
  intro index
  have before := lone index
  have stays := owed index
  rw [workers, total_requestsOf_update config (same index)]
  omega

/-- A worker is done with a request, and leaves some of its inbox. -/
theorem Lone.release (lone : Lone config state) {worker : Nat} {after : Worker} {job : Job}
    (known : worker < config.numWorkers)
    (at_phase : (state.workers worker).phase = .handling job)
    (workers : next.workers = Function.update state.workers worker after)
    (idle : ∀ index, after.phase.requestsOf index = 0)
    (owed : ∀ index, (next.calls index).phase.owed + after.inbox.countP (WorkRequest.isOf index) ≤
      (state.calls index).phase.owed + (if job.request.call = index then 1 else 0) +
        (state.workers worker).inbox.countP (WorkRequest.isOf index)) : Lone config next := by
  refine lone.updateWorker known workers fun index => ?_
  have bound := owed index
  simp only [Worker.requestsOf, at_phase, idle index]
  simp only [WorkerPhase.requestsOf]
  omega

/-- An idle worker goes away; what is queued there goes back to the calls. -/
theorem Lone.leave (lone : Lone config state) {worker : Nat} {after : Worker}
    (known : worker < config.numWorkers) (empty : after.inbox = [])
    (idle : ∀ index, after.phase.requestsOf index = 0) :
    Lone config ((state.dropInbox (state.workers worker).inbox).setWorker worker after) := by
  have workers : ((state.dropInbox (state.workers worker).inbox).setWorker worker after).workers =
      Function.update state.workers worker after := by
    rw [dropInbox_eq]
    rfl
  refine lone.updateWorker known workers fun index => ?_
  have dropped := owed_dropInbox state (state.workers worker).inbox index
  have none := idle index
  simp only [Worker.requestsOf, empty, List.countP_nil]
  show ((state.dropInbox (state.workers worker).inbox).calls index).phase.owed + _ ≤ _
  omega

theorem Lone.step {label : Label} (wired : Wired config state) (lone : Lone config state)
    (stepped : Server.step config state label = some next) : Lone config next := by
  cases moves_of_step stepped with
  | arrive count bound =>
      have absent := wired.absent state.arrivals (Nat.le_refl _)
      exact lone.updateCall rfl rfl (by rw [absent]; exact Nat.le_refl 1)
  | call index after inflight nextWorker moves => exact lone.updateCall rfl rfl moves.owed
  | receive index item resp stream connected waiting | disconnect index stream connected =>
      exact lone.updateCall rfl rfl (Nat.le_refl _)
  | reserve index remaining worker chunkSize at_phase up room =>
      have asked : Lone config (state.setCall index
          { state.calls index with phase := .feeding remaining (.pushing worker chunkSize) }) :=
        lone.updateCall rfl rfl (by rw [at_phase]; exact Nat.le_refl 1)
      exact asked.keep rfl (fun _ => rfl) fun _ => Nat.le_refl _
  | send index remaining worker chunkSize at_phase =>
      refine lone.send at_phase rfl rfl rfl ?_ fun other different => ?_
      · simp only [Worker.requestsOf, List.countP_append, List.countP_singleton, WorkRequest.isOf,
          beq_self_eq_true, if_true]
        omega
      · simp only [Worker.requestsOf, List.countP_append, List.countP_singleton, WorkRequest.isOf,
          beq_iff_eq, Ne.symm different, if_false, Nat.add_zero]
  | work index now after known moves =>
      exact lone.keep rfl moves.requestsOf fun _ => Nat.le_refl _
  | allocationPanic index now known at_phase | stop index now known at_phase =>
      exact lone.leave known rfl fun _ => rfl
  | takeStream index now request inbox known at_phase waiting =>
      refine lone.keep rfl (fun other => ?_) (owed_state_mapChannel state request ?_)
      · simp only [Worker.requestsOf, at_phase, waiting, List.countP_cons, WorkRequest.isOf,
          WorkerPhase.requestsOf, beq_iff_eq, Nat.add_zero]
      · intro channel held
        cases held
  | indexPanic index now job id known at_phase =>
      refine lone.release known at_phase (by rw [dropInbox_eq]; rfl) (fun _ => rfl) fun other => ?_
      have dropped := owed_drop state job.request other
      have left := owed_dropInbox (state.mapChannel job.request .drop)
        (state.workers index).inbox other
      exact Nat.le_trans left (Nat.add_le_add_right dropped _)
  | finish index now job known at_phase =>
      refine lone.release known at_phase rfl (fun _ => rfl) fun other => ?_
      exact Nat.add_le_add_right (owed_drop state job.request other) _
  | pushFull index now job bytes known at_phase =>
      refine lone.keep rfl (fun other => ?_) (owed_state_mapChannel state job.request fun _ => id)
      simp only [Worker.requestsOf, at_phase, WorkerPhase.requestsOf]
  | pushRest index now job bytes known at_phase =>
      refine lone.release known at_phase rfl (fun _ => rfl) fun other => ?_
      have pushed : ((state.mapChannel job.request (.push bytes)).calls other).phase.owed ≤
          (state.calls other).phase.owed := by
        apply owed_state_mapChannel
        exact fun _ => id
      have dropped := owed_drop (state.mapChannel job.request (.push bytes)) job.request other
      exact Nat.add_le_add_right (Nat.le_trans dropped (Nat.add_le_add_right pushed _)) _
  | notify timeout index at_phase known =>
      refine lone.keep rfl (fun other => ?_) fun _ => Nat.le_refl _
      simp only [Worker.requestsOf, List.countP_append, List.countP_singleton, WorkRequest.isOf,
        Bool.false_eq_true, if_false, Nat.add_zero]
  | abort | beginShutdown | drain | cancel | skip | finishShutdown => exact lone

theorem lone_initial (config : ServerConfig) : Lone config (initial config) := by
  intro index
  have none : total (Worker.requestsOf index) config.numWorkers (initial config).workers = 0 :=
    total_eq_zero fun _ => rfl
  rw [none]
  exact Nat.le_refl 1

theorem Lone.run (checked : config.Checked) {labels : List Label}
    (ran : Transition.run (Server.step config) (initial config) labels = some state) :
    Lone config state := by
  have both := Transition.run_invariant_always
    (fun state => Wired config state ∧ Lone config state)
    (fun _ _ _ before stepped =>
      ⟨before.1.step checked stepped, before.2.step before.1 stepped⟩)
    ⟨wired_initial config, lone_initial config⟩ ran
  exact both.2

end Requests

/-! ## IDs in memory -/

/-- The IDs in a client's response channel and with its feed task. -/
def Call.waitingIds (call : Call) : List ServerId :=
  call.resp.flatMap Item.ids ++ call.phase.chunks.flatMap unpack

/-- The IDs in a chunk that a worker waits to send for a client. -/
def Worker.sendingIds (index : Nat) (worker : Worker) : List ServerId :=
  match worker.phase with
  | .handling job => if job.request.call = index then unpack job.point.bytes else []
  | _ => []

/-- The IDs in memory for a client that has not taken them. -/
def State.keptIds (config : ServerConfig) (state : State) (index : Nat) : List ServerId :=
  (state.calls index).waitingIds ++
    (List.range config.numWorkers).flatMap fun worker => (state.workers worker).sendingIds index

section Waiting

variable {config : ServerConfig}

theorem length_unpack_le (checked : config.Checked) {chunk : IdChunk}
    (small : chunk.length ≤ config.chunkBytes) : (unpack chunk).length ≤ config.idsPerChunk := by
  rw [length_unpack]
  rw [checked.chunkBytes_eq] at small
  exact Nat.div_le_of_le_mul (by rwa [Nat.mul_comm])

/-- Items of at most so many IDs each. -/
theorem length_flatMap_ids_le {α : Type} {items : List α} {ids : α → List ServerId}
    {bound : Nat} (small : ∀ item ∈ items, (ids item).length ≤ bound) :
    (items.flatMap ids).length ≤ items.length * bound := by
  have summed := List.sum_le_card_nsmul (items.map fun item => (ids item).length) bound
    (by simpa using small)
  rwa [List.length_map, nsmul_eq_mul, Nat.cast_id, ← List.length_flatMap] at summed

/-- A feed task holds a chunk, and its channel a few more. -/
theorem CallPhase.Fits.chunks {phase : CallPhase} (fits : phase.Fits config) :
    phase.chunks.length ≤ chunkCapacity + 1 ∧
      ∀ chunk ∈ phase.chunks, chunk.length ≤ config.chunkBytes := by
  cases phase with
  | feeding remaining stage =>
      cases stage with
      | receiving channel =>
          have inBounds : channel.Fits config := fits
          exact ⟨Nat.le_succ_of_le inBounds.capacity, inBounds.chunks⟩
      | forwarding channel chunk =>
          refine ⟨Nat.succ_le_succ fits.1.capacity, ?_⟩
          show ∀ other ∈ chunk :: channel.queue, _
          rw [List.forall_mem_cons]
          exact ⟨fits.2, fits.1.chunks⟩
      | _ => simp [CallPhase.chunks, Stage.chunks]
  | _ => simp [CallPhase.chunks]

theorem Call.Fits.length_waitingIds (checked : config.Checked) {call : Call}
    (fits : call.Fits config) :
    call.waitingIds.length ≤
      (config.streamBufferSize + chunkCapacity + 1) * config.idsPerChunk := by
  have response : (call.resp.flatMap Item.ids).length ≤ call.resp.length * config.idsPerChunk := by
    apply length_flatMap_ids_le
    intro item member
    cases item with
    | chunk packedIds => exact length_unpack_le checked (fits.chunks packedIds member)
    | error error => exact Nat.zero_le _
  obtain ⟨few, small⟩ := fits.phase.chunks
  have feed : (call.phase.chunks.flatMap unpack).length ≤
      call.phase.chunks.length * config.idsPerChunk := by
    apply length_flatMap_ids_le
    intro chunk member
    exact length_unpack_le checked (small chunk member)
  have capacity := fits.capacity
  rw [waitingIds, List.length_append]
  calc (call.resp.flatMap Item.ids).length + (call.phase.chunks.flatMap unpack).length
      ≤ call.resp.length * config.idsPerChunk +
          call.phase.chunks.length * config.idsPerChunk := Nat.add_le_add response feed
    _ = (call.resp.length + call.phase.chunks.length) * config.idsPerChunk :=
        (Nat.add_mul ..).symm
    _ ≤ _ := Nat.mul_le_mul_right _ (by omega)

theorem Worker.Fits.length_sendingIds (checked : config.Checked) {worker : Worker}
    (fits : worker.Fits config) (index : Nat) :
    (worker.sendingIds index).length ≤ worker.requestsOf index * config.idsPerChunk := by
  cases at_phase : worker.phase with
  | handling job =>
      simp only [Worker.sendingIds, Worker.requestsOf, at_phase, WorkerPhase.requestsOf]
      by_cases same : job.request.call = index
      · rw [if_pos same, if_pos same]
        calc (unpack job.point.bytes).length
            ≤ config.idsPerChunk := length_unpack_le checked (fits.sending job at_phase)
          _ ≤ _ := Nat.le_mul_of_pos_left _ (Nat.succ_pos _)
      · rw [if_neg same]
        exact Nat.zero_le _
  | _ =>
      simp only [Worker.sendingIds, at_phase]
      exact Nat.zero_le _

/-- Only one worker has a request of the client. -/
theorem Lone.length_sendingIds (checked : config.Checked) {state : State}
    (lone : Lone config state) (fits : state.Fits config) (index : Nat) :
    ((List.range config.numWorkers).flatMap fun worker =>
      (state.workers worker).sendingIds index).length ≤ config.idsPerChunk := by
  have few : total (Worker.requestsOf index) config.numWorkers state.workers ≤ 1 := by
    have one := lone index
    omega
  rw [List.length_flatMap]
  calc ((List.range config.numWorkers).map fun worker =>
        ((state.workers worker).sendingIds index).length).sum
      ≤ ((List.range config.numWorkers).map fun worker =>
          (state.workers worker).requestsOf index * config.idsPerChunk).sum := by
        apply List.sum_le_sum
        intro worker _
        exact (fits.workers worker).length_sendingIds checked index
    _ = total (Worker.requestsOf index) config.numWorkers state.workers * config.idsPerChunk := by
        rw [total_eq_sum, List.sum_map_mul_right]
    _ ≤ 1 * config.idsPerChunk := Nat.mul_le_mul_right _ few
    _ = config.idsPerChunk := Nat.one_mul _

end Waiting

/-- In every run, what the server keeps for a client is bounded by its configuration,
however much the client has asked for and however slowly it reads. -/
theorem memory_bounded (config : ServerConfig) (accepted : config.Accepted) (labels : List Label)
    (state : State) (ran : Transition.run (step config) (initial config) labels = some state) :
    (∀ index, (state.calls index).resp.length ≤ config.streamBufferSize ∧
      (state.keptIds config index).length ≤
        (config.streamBufferSize + 4) * config.idsPerChunk) ∧
      ∀ worker, (state.workers worker).inbox.length + (state.workers worker).permits.length ≤ 1 ∧
        (state.workers worker).buff.length ≤ config.idsPerChunk * 8 := by
  have checked := accepted.checked
  have fits := State.Fits.run ran
  have wired := Wired.run checked ran
  refine ⟨fun index => ⟨(fits.calls index).capacity, ?_⟩, fun worker => ⟨?_, ?_⟩⟩
  · have waiting := (fits.calls index).length_waitingIds checked
    have sending := (Lone.run checked ran).length_sendingIds checked fits index
    rw [State.keptIds, List.length_append]
    calc _ ≤ (config.streamBufferSize + chunkCapacity + 1) * config.idsPerChunk +
          config.idsPerChunk := Nat.add_le_add waiting sending
      _ = (config.streamBufferSize + 4) * config.idsPerChunk := (Nat.succ_mul ..).symm
  · exact wired.permitted.short worker
  · have buffer := (fits.workers worker).buffer
    rwa [checked.chunkBytes_eq] at buffer

/-- A client asks for two IDs and reads nothing; a worker waits to send the second. -/
theorem memory_bounded_unread :
    ∃ state, Transition.run (step nodeOfTwo) (initial nodeOfTwo) (threeIdsRun.take 27) =
        some state ∧ (state.keptIds nodeOfTwo 0).length = 2 ∧
      ((state.workers 1).sendingIds 0).length = 1 ∧ (state.keptIds nodeOfTwo 0).length ≤ 12 := by
  have observed : (Transition.run (step nodeOfTwo) (initial nodeOfTwo)
      (threeIdsRun.take 27)).map (fun state => ((state.keptIds nodeOfTwo 0).length,
        ((state.workers 1).sendingIds 0).length)) = some (2, 1) := by
    decide +kernel
  obtain ⟨state, ran, seen⟩ := Option.map_eq_some_iff.mp observed
  simp only [Prod.mk.injEq] at seen
  have bounded := memory_bounded nodeOfTwo nodeOfTwo_accepted (threeIdsRun.take 27) state ran
  exact ⟨state, ran, seen.1, seen.2, (bounded.1 0).2⟩

end Ferroid.Server
