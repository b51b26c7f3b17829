import Mathlib.Logic.Function.Basic
import Ferroid.Generator.Snowflake.Basic
import Ferroid.Server.Chunk

/-!
Contract: the running server as a state machine.

Owns the state of every `stream_ids` call with its feed task and its client, of
every worker with its buffer and generator, of the worker pool's shutdown, and
one step function in which any of these tasks may move next.

A step ends where the source awaits or touches something another task can see:
an atomic, the cancellation token, or a channel. Channels are bounded FIFO
queues that lose nothing while both ends are alive; a queue is dropped with its
receiver. A send first takes a permit and then pushes, and the receiver may go away
in between: what is pushed after that stays in the queue for ever. This shows only
at the inboxes, whose messages carry a sender; all other sends are one step.

Does not own any property of runs.
-/

namespace Ferroid.Server

open Ferroid.Id
open Ferroid.Generator

/-! ## Messages -/

/-- `WorkRequest::Stream`. The chunk channel whose sender it carries is named by
the call that made it and its number among that call's channels. -/
structure StreamRequest where
  call : Nat
  channel : Nat
  chunkSize : Nat
deriving DecidableEq, Repr

/-- The acknowledgement channel of `Shutdown` affects no other task. -/
inductive WorkRequest where
  | stream (request : StreamRequest)
  | shutdown
deriving DecidableEq, Repr

/-- Errors that `send_to_next_worker` returns. -/
inductive DispatchError where
  | serviceShutdown
  | channelError (worker : Nat)
deriving DecidableEq, Repr

/-- An item of a response stream. -/
inductive Item where
  | chunk (packedIds : IdChunk)
  | error (error : DispatchError)
deriving DecidableEq, Repr

/-- Errors that `stream_ids` returns instead of a stream. -/
inductive RequestError where
  | serviceShutdown
  | zeroCount
  | tooMany (count maxAllowedIds : Nat)
deriving DecidableEq, Repr

/-! ## Calls -/

/-- Where the sender of a chunk channel is: inside a queued request, with the
worker that handles it, or dropped. -/
inductive Sender where
  | queued
  | held
  | dropped
deriving DecidableEq, Repr

/-- A chunk channel as its receiver holds it. `worker`, `size` and `fed` (a chunk
was sent) are kept for reasoning only. -/
structure ChunkChannel where
  number : Nat
  worker : Nat
  size : Nat
  sender : Sender
  fed : Bool
  queue : List IdChunk
deriving DecidableEq, Repr

/-- Capacity of a chunk channel. -/
def chunkCapacity : Nat := 2

/-- Capacity of a worker's inbox. -/
def inboxCapacity : Nat := 1

/-- Where `feed_chunks` stands. A task that is sending has no permit yet; one that is
pushing has it. -/
inductive Stage where
  | top
  | checking (chunkSize : Nat)
  | picking (chunkSize : Nat)
  | sending (worker chunkSize : Nat)
  | pushing (worker chunkSize : Nat)
  | receiving (channel : ChunkChannel)
  | forwarding (channel : ChunkChannel) (chunk : IdChunk)
  | failing (error : DispatchError)
deriving DecidableEq, Repr

/-- Where a `stream_ids` call stands: its handler up to the spawn, then the
spawned task. -/
inductive CallPhase where
  | absent
  | arrived
  | checked
  | counted
  | rejected (error : RequestError)
  | panicked
  | feeding (remaining : Nat) (stage : Stage)
  | returned
  | done
deriving DecidableEq, Repr

structure Call where
  count : Nat
  phase : CallPhase
  /-- Chunk channels created so far. -/
  channels : Nat
  /-- The client holds its response stream. -/
  connected : Bool
  /-- The response channel. -/
  resp : List Item
  /-- What the client has taken from it. -/
  received : List Item
deriving DecidableEq, Repr

def Call.absent : Call := ⟨0, .absent, 0, true, [], []⟩

/-- The chunk channel of that number, while its receiver is alive. -/
def Call.channel? (call : Call) (number : Nat) : Option ChunkChannel :=
  match call.phase with
  | .feeding _ (.receiving channel) => if channel.number = number then some channel else none
  | .feeding _ (.forwarding channel _) => if channel.number = number then some channel else none
  | _ => none

/-- Change the chunk channel of that number, if its receiver is alive. -/
def Call.mapChannel (call : Call) (number : Nat) (change : ChunkChannel → ChunkChannel) : Call :=
  match call.phase with
  | .feeding remaining (.receiving channel) =>
      if channel.number = number then
        { call with phase := .feeding remaining (.receiving (change channel)) }
      else call
  | .feeding remaining (.forwarding channel chunk) =>
      if channel.number = number then
        { call with phase := .feeding remaining (.forwarding (change channel) chunk) }
      else call
  | _ => call

/-! ## Workers -/

/-- Where `handle_stream_request` stands: at the head of its loop, before the
check of a full buffer, or waiting to send a full or a partial chunk. -/
inductive Point where
  | generating
  | checking
  | sendingFull (bytes : IdChunk)
  | sendingRest (bytes : IdChunk)
deriving DecidableEq, Repr

structure Job where
  request : StreamRequest
  generated : Nat
  point : Point
deriving DecidableEq, Repr

/-- Where `worker_loop` stands. A stopping worker has taken `Shutdown` and not yet
dropped its receiver. -/
inductive WorkerPhase where
  | starting
  | waiting
  | handling (job : Job)
  | stopping
  | stopped
  | panicked
deriving DecidableEq, Repr

/-- `permits` are the calls that have taken a permit of the inbox and not pushed yet,
and `sent` logs the chunks this worker has put into chunk channels. -/
structure Worker where
  generator : BasicSnowflakeGenerator ServerLayout
  inbox : List WorkRequest
  permits : List Nat
  buff : List UInt8
  buffPos : Nat
  phase : WorkerPhase
  sent : List IdChunk
deriving DecidableEq, Repr

/-- The receiver of the inbox is dropped. -/
def Worker.isDown (worker : Worker) : Bool :=
  match worker.phase with
  | .stopped | .panicked => true
  | _ => false

/-- The inbox has a permit to give. -/
def Worker.HasRoom (worker : Worker) : Prop :=
  worker.inbox.length + worker.permits.length < inboxCapacity

instance (worker : Worker) : Decidable worker.HasRoom :=
  inferInstanceAs (Decidable (_ < _))

/-! ## The server -/

/-- Where `WorkerPool::shutdown` stands. -/
inductive ManagerPhase where
  | idle
  | draining
  | cancelling
  | notifying (worker : Nat)
  | finished
deriving DecidableEq, Repr

structure State where
  calls : Nat → Call
  /-- Calls that have arrived; they are numbered in order. -/
  arrivals : Nat
  workers : Nat → Worker
  nextWorker : Nat
  /-- `SHUTDOWN`. -/
  shutdown : Bool
  /-- `STREAMS_INFLIGHT`. -/
  inflight : BitVec 64
  /-- The cancellation token. -/
  cancelled : Bool
  manager : ManagerPhase
  /-- An allocation has failed, and the process with it. -/
  aborted : Bool

/-- `IdService::new`: the workers are spawned and have not run yet. -/
def initial (config : ServerConfig) : State where
  calls := fun _ => Call.absent
  arrivals := 0
  workers := fun worker =>
    ⟨BasicSnowflakeGenerator.new (config.machineId worker), [], [], [], 0, .starting, []⟩
  nextWorker := 0
  shutdown := false
  inflight := 0
  cancelled := false
  manager := .idle
  aborted := false

def State.setCall (state : State) (index : Nat) (call : Call) : State :=
  { state with calls := Function.update state.calls index call }

def State.setWorker (state : State) (index : Nat) (worker : Worker) : State :=
  { state with workers := Function.update state.workers index worker }

/-- `chunk_tx.is_closed()`. -/
def State.isClosed (state : State) (request : StreamRequest) : Bool :=
  ((state.calls request.call).channel? request.channel).isNone

/-- Messages waiting in a chunk channel. -/
def State.queued (state : State) (request : StreamRequest) : Nat :=
  match (state.calls request.call).channel? request.channel with
  | some channel => channel.queue.length
  | none => 0

/-- Something happens to the sender a request carries. -/
def State.mapChannel (state : State) (request : StreamRequest)
    (change : ChunkChannel → ChunkChannel) : State :=
  state.setCall request.call ((state.calls request.call).mapChannel request.channel change)

def ChunkChannel.hold (channel : ChunkChannel) : ChunkChannel :=
  { channel with sender := .held }

def ChunkChannel.drop (channel : ChunkChannel) : ChunkChannel :=
  { channel with sender := .dropped }

def ChunkChannel.push (chunk : IdChunk) (channel : ChunkChannel) : ChunkChannel :=
  { channel with fed := true, queue := channel.queue ++ [chunk] }

/-- A worker goes away: its receiver is dropped with what is queued there. -/
def State.dropInbox (state : State) (inbox : List WorkRequest) : State :=
  inbox.foldl (fun state work =>
    match work with
    | .stream request => state.mapChannel request .drop
    | .shutdown => state) state

end Ferroid.Server
