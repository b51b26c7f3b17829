import Ferroid.Server.Model

/-!
Contract: the steps of the server.

Owns the step of each task as the source writes it (`stream_ids`, `feed_chunks`,
the client, `worker_loop`, `handle_stream_request`, `WorkerPool::shutdown`), their
interleaving, and the list of everything one step can do.

Does not own any property of runs.
-/

namespace Ferroid.Server

open Ferroid.Id
open Ferroid.Generator

/-! ## Calls and clients -/

/-- `feed_chunks`, one step. -/
def feedStep (config : ServerConfig) (state : State) (index : Nat) (remaining : Nat) :
    Stage → Option State
  | .top =>
      let call := state.calls index
      if 0 < remaining then
        let chunkSize := min remaining config.idsPerChunk
        some (state.setCall index
          { call with
            phase := .feeding (remaining - chunkSize) (.checking chunkSize)
            channels := call.channels + 1 })
      else
        some (state.setCall index { call with phase := .returned })
  | .checking chunkSize =>
      let call := state.calls index
      if state.cancelled then
        some (state.setCall index
          { call with phase := .feeding remaining (.failing .serviceShutdown) })
      else
        some (state.setCall index { call with phase := .feeding remaining (.picking chunkSize) })
  | .picking chunkSize =>
      let call := state.calls index
      let worker := state.nextWorker % config.numWorkers
      some { state.setCall index
          { call with phase := .feeding remaining (.sending worker chunkSize) } with
        nextWorker := (state.nextWorker + 1) % usizeRange }
  | .sending index' chunkSize =>
      let call := state.calls index
      let worker := state.workers index'
      if worker.isDown then
        some (state.setCall index
          { call with phase := .feeding remaining (.failing (.channelError index')) })
      else if worker.HasRoom then
        some ((state.setCall index
          { call with phase := .feeding remaining (.pushing index' chunkSize) }).setWorker index'
            { worker with permits := index :: worker.permits })
      else
        none
  | .pushing index' chunkSize =>
      -- a permit is good for a push even when the receiver has gone meanwhile
      let call := state.calls index
      let worker := state.workers index'
      let request : StreamRequest := ⟨index, call.channels, chunkSize⟩
      let channel : ChunkChannel := ⟨call.channels, index', chunkSize, .queued, false, []⟩
      some ((state.setCall index
        { call with phase := .feeding remaining (.receiving channel) }).setWorker index'
          { worker with
            inbox := worker.inbox ++ [.stream request]
            permits := worker.permits.erase index })
  | .receiving channel =>
      let call := state.calls index
      match channel.queue with
      | chunk :: queue =>
          some (state.setCall index
            { call with
              phase := .feeding remaining (.forwarding { channel with queue := queue } chunk) })
      | [] =>
          if channel.sender = .dropped then
            some (state.setCall index { call with phase := .feeding remaining .top })
          else
            none
  | .forwarding channel chunk =>
      let call := state.calls index
      if !call.connected then
        some (state.setCall index { call with phase := .returned })
      else if call.resp.length < config.streamBufferSize then
        some (state.setCall index
          { call with
            phase := .feeding remaining (.receiving channel)
            resp := call.resp ++ [.chunk chunk] })
      else
        none
  | .failing error =>
      let call := state.calls index
      if !call.connected then
        some (state.setCall index { call with phase := .returned })
      else if call.resp.length < config.streamBufferSize then
        some (state.setCall index
          { call with phase := .returned, resp := call.resp ++ [.error error] })
      else
        none

/-- `stream_ids` up to its spawn, then the spawned task. Opening the response
channel panics for a capacity that the channel does not support. -/
def callStep (config : ServerConfig) (state : State) (index : Nat) : Option State :=
  let call := state.calls index
  match call.phase with
  | .arrived =>
      if state.shutdown then
        some (state.setCall index { call with phase := .rejected .serviceShutdown })
      else
        some (state.setCall index { call with phase := .checked })
  | .checked =>
      if call.count = 0 then
        some (state.setCall index { call with phase := .rejected .zeroCount })
      else if call.count > config.maxAllowedIds then
        some (state.setCall index
          { call with phase := .rejected (.tooMany call.count config.maxAllowedIds) })
      else
        some { state.setCall index { call with phase := .counted } with
          inflight := state.inflight + 1 }
  | .counted =>
      if 0 < config.streamBufferSize ∧ config.streamBufferSize ≤ maxPermits then
        some (state.setCall index { call with phase := .feeding call.count .top })
      else
        some (state.setCall index { call with phase := .panicked })
  | .feeding remaining stage => feedStep config state index remaining stage
  | .returned =>
      some { state.setCall index { call with phase := .done } with
        inflight := state.inflight - 1 }
  | .absent | .rejected _ | .panicked | .done => none

/-- The client has been given a response stream. -/
def Call.hasStream (call : Call) : Bool :=
  match call.phase with
  | .feeding _ _ | .returned | .done => true
  | _ => false

/-- The client takes the next item of its stream. -/
def receiveStep (state : State) (index : Nat) : Option State :=
  let call := state.calls index
  if call.hasStream && call.connected then
    match call.resp with
    | item :: resp =>
        some (state.setCall index
          { call with resp := resp, received := call.received ++ [item] })
    | [] => none
  else
    none

/-- The client drops its stream, and with it what is queued there. -/
def disconnectStep (state : State) (index : Nat) : Option State :=
  let call := state.calls index
  if call.hasStream && call.connected then
    some (state.setCall index { call with connected := false, resp := [] })
  else
    none

/-! ## Workers -/

/-- `handle_stream_request` returns: its sender is dropped and the worker waits
for the next request. -/
def finishJob (state : State) (index : Nat) (worker : Worker) (job : Job) : State :=
  (state.mapChannel job.request .drop).setWorker index { worker with phase := .waiting }

/-- `handle_stream_request`, one step; `now` is the clock reading of its poll. -/
def jobStep (config : ServerConfig) (state : State) (index : Nat) (now : ServerLayout.Ty)
    (job : Job) : Option State :=
  let worker := state.workers index
  match job.point with
  | .generating =>
      if job.generated < job.request.chunkSize then
        match worker.generator.pollId now with
        | (generator, .ready id) =>
            if worker.buffPos + SNOWFLAKE_ID_SIZE ≤ worker.buff.length then
              let buff := worker.buff.take worker.buffPos ++ toLeBytes id ++
                worker.buff.drop (worker.buffPos + SNOWFLAKE_ID_SIZE)
              let buffPos := worker.buffPos + SNOWFLAKE_ID_SIZE
              let point := if buffPos = config.chunkBytes then .checking else .generating
              some (state.setWorker index
                { worker with
                  generator := generator
                  buff := buff
                  buffPos := buffPos
                  phase := .handling ⟨job.request, job.generated + 1, point⟩ })
            else
              some (((state.mapChannel job.request .drop).dropInbox worker.inbox).setWorker index
                { worker with generator := generator, inbox := [], phase := .panicked })
        | (generator, .pending _) =>
            some (state.setWorker index { worker with generator := generator })
      else if 0 < worker.buffPos ∧ state.isClosed job.request = false then
        some (state.setWorker index
          { worker with
            buffPos := 0
            phase := .handling
              { job with point := .sendingRest (worker.buff.take worker.buffPos) } })
      else
        some (finishJob state index worker job)
  | .checking =>
      if state.isClosed job.request then
        some (finishJob state index worker job)
      else
        some (state.setWorker index
          { worker with phase := .handling { job with point := .sendingFull worker.buff } })
  | .sendingFull bytes =>
      if state.isClosed job.request then
        some (finishJob state index worker job)
      else if state.queued job.request < chunkCapacity then
        some ((state.mapChannel job.request (.push bytes)).setWorker index
          { worker with
            buffPos := 0
            phase := .handling { job with point := .generating }
            sent := worker.sent ++ [bytes] })
      else
        none
  | .sendingRest bytes =>
      if state.isClosed job.request then
        some (finishJob state index worker job)
      else if state.queued job.request < chunkCapacity then
        some (finishJob (state.mapChannel job.request (.push bytes)) index
          { worker with sent := worker.sent ++ [bytes] } job)
      else
        none

/-- `worker_loop`, one step. Allocating the buffer panics beyond `isize::MAX` bytes.
Here an allocation within that bound succeeds; `abortStep` is the other case. -/
def workStep (config : ServerConfig) (state : State) (index : Nat) (now : ServerLayout.Ty) :
    Option State :=
  let worker := state.workers index
  if index < config.numWorkers then
    match worker.phase with
    | .starting =>
        if config.chunkBytes ≤ isizeMax then
          some (state.setWorker index
            { worker with
              buff := List.replicate config.chunkBytes 0
              buffPos := 0
              phase := .waiting })
        else
          some ((state.dropInbox worker.inbox).setWorker index
            { worker with inbox := [], phase := .panicked })
    | .waiting =>
        match worker.inbox with
        | .stream request :: inbox =>
            some ((state.mapChannel request .hold).setWorker index
              { worker with inbox := inbox, phase := .handling ⟨request, 0, .generating⟩ })
        | .shutdown :: inbox =>
            some (state.setWorker index { worker with inbox := inbox, phase := .stopping })
        | [] => none
    | .handling job => jobStep config state index now job
    | .stopping =>
        some ((state.dropInbox worker.inbox).setWorker index
          { worker with inbox := [], phase := .stopped })
    | .stopped | .panicked => none
  else
    none

/-- The buffer of a worker that starts is within the bound, and the allocator does not
give it: this aborts the process. An empty buffer asks for no memory. -/
def abortStep (config : ServerConfig) (state : State) (index : Nat) : Option State :=
  if index < config.numWorkers ∧ (state.workers index).phase = .starting ∧
      0 < config.chunkBytes ∧ config.chunkBytes ≤ isizeMax then
    some { state with aborted := true }
  else
    none

/-! ## Shutdown -/

/-- `WorkerPool::shutdown`, one step. Draining ends when it reads no stream in
flight, or by timeout. -/
def manageStep (config : ServerConfig) (state : State) (timeout : Bool) : Option State :=
  match state.manager with
  | .idle => some { state with shutdown := true, manager := .draining }
  | .draining =>
      if state.inflight = 0 ∨ timeout = true then
        some { state with manager := .cancelling }
      else
        none
  | .cancelling => some { state with cancelled := true, manager := .notifying 0 }
  | .notifying index =>
      let worker := state.workers index
      if index < config.numWorkers then
        if worker.isDown then
          some { state with manager := .notifying (index + 1) }
        else if worker.HasRoom then
          some { state.setWorker index { worker with inbox := worker.inbox ++ [.shutdown] } with
            manager := .notifying (index + 1) }
        else
          none
      else
        some { state with manager := .finished }
  | .finished => none

/-! ## Interleaving -/

/-- Which task moves next, with what it reads from outside. A worker that starts either
works or aborts, as the allocator answers. -/
inductive Label where
  | arrive (count : Nat)
  | call (index : Nat)
  | receive (index : Nat)
  | disconnect (index : Nat)
  | work (index : Nat) (now : ServerLayout.Ty)
  | abort (index : Nat)
  | manage (timeout : Bool)
deriving DecidableEq, Repr

/-- One step of a process that runs; `none` when the task cannot move. A request's count
is a 64-bit integer. -/
def taskStep (config : ServerConfig) (state : State) : Label → Option State
  | .arrive count =>
      if count < usizeRange then
        some { state.setCall state.arrivals
            { Call.absent with count := count, phase := .arrived } with
          arrivals := state.arrivals + 1 }
      else
        none
  | .call index => callStep config state index
  | .receive index => receiveStep state index
  | .disconnect index => disconnectStep state index
  | .work index now => workStep config state index now
  | .abort index => abortStep config state index
  | .manage timeout => manageStep config state timeout

/-- The step function: no task of an aborted process moves. -/
def step (config : ServerConfig) (state : State) (label : Label) : Option State :=
  if state.aborted then none else taskStep config state label

/-! ## What a step can do -/

/-- The steps of a call that touch no worker, with the counters they leave. -/
inductive CallMoves (config : ServerConfig) (state : State) (call : Call) :
    Call → BitVec 64 → Nat → Prop where
  | refuse (at_phase : call.phase = .arrived) (down : state.shutdown = true) :
      CallMoves config state call { call with phase := .rejected .serviceShutdown }
        state.inflight state.nextWorker
  | check (at_phase : call.phase = .arrived) (up : state.shutdown = false) :
      CallMoves config state call { call with phase := .checked } state.inflight state.nextWorker
  | zero (at_phase : call.phase = .checked) (none : call.count = 0) :
      CallMoves config state call { call with phase := .rejected .zeroCount }
        state.inflight state.nextWorker
  | tooMany (at_phase : call.phase = .checked) (some : call.count ≠ 0)
      (many : config.maxAllowedIds < call.count) :
      CallMoves config state call
        { call with phase := .rejected (.tooMany call.count config.maxAllowedIds) }
        state.inflight state.nextWorker
  | count (at_phase : call.phase = .checked) (some : call.count ≠ 0)
      (allowed : call.count ≤ config.maxAllowedIds) :
      CallMoves config state call { call with phase := .counted } (state.inflight + 1)
        state.nextWorker
  | spawn (at_phase : call.phase = .counted)
      (capacity : 0 < config.streamBufferSize ∧ config.streamBufferSize ≤ maxPermits) :
      CallMoves config state call { call with phase := .feeding call.count .top }
        state.inflight state.nextWorker
  | burst (at_phase : call.phase = .counted)
      (capacity : ¬ (0 < config.streamBufferSize ∧ config.streamBufferSize ≤ maxPermits)) :
      CallMoves config state call { call with phase := .panicked } state.inflight state.nextWorker
  | cut (remaining : Nat) (at_phase : call.phase = .feeding remaining .top)
      (more : 0 < remaining) :
      CallMoves config state call
        { call with
          phase := .feeding (remaining - min remaining config.idsPerChunk)
            (.checking (min remaining config.idsPerChunk))
          channels := call.channels + 1 }
        state.inflight state.nextWorker
  | complete (at_phase : call.phase = .feeding 0 .top) :
      CallMoves config state call { call with phase := .returned } state.inflight state.nextWorker
  | cancelled (remaining chunkSize : Nat)
      (at_phase : call.phase = .feeding remaining (.checking chunkSize))
      (cancelled : state.cancelled = true) :
      CallMoves config state call
        { call with phase := .feeding remaining (.failing .serviceShutdown) }
        state.inflight state.nextWorker
  | proceed (remaining chunkSize : Nat)
      (at_phase : call.phase = .feeding remaining (.checking chunkSize))
      (running : state.cancelled = false) :
      CallMoves config state call { call with phase := .feeding remaining (.picking chunkSize) }
        state.inflight state.nextWorker
  | pick (remaining chunkSize : Nat)
      (at_phase : call.phase = .feeding remaining (.picking chunkSize)) :
      CallMoves config state call
        { call with
          phase := .feeding remaining (.sending (state.nextWorker % config.numWorkers) chunkSize) }
        state.inflight ((state.nextWorker + 1) % usizeRange)
  | down (remaining worker chunkSize : Nat)
      (at_phase : call.phase = .feeding remaining (.sending worker chunkSize))
      (down : (state.workers worker).isDown = true) :
      CallMoves config state call
        { call with phase := .feeding remaining (.failing (.channelError worker)) }
        state.inflight state.nextWorker
  | take (remaining : Nat) (channel : ChunkChannel) (chunk : IdChunk) (queue : List IdChunk)
      (at_phase : call.phase = .feeding remaining (.receiving channel))
      (waiting : channel.queue = chunk :: queue) :
      CallMoves config state call
        { call with
          phase := .feeding remaining (.forwarding { channel with queue := queue } chunk) }
        state.inflight state.nextWorker
  | drained (remaining : Nat) (channel : ChunkChannel)
      (at_phase : call.phase = .feeding remaining (.receiving channel))
      (empty : channel.queue = []) (dropped : channel.sender = .dropped) :
      CallMoves config state call { call with phase := .feeding remaining .top }
        state.inflight state.nextWorker
  | forward (remaining : Nat) (channel : ChunkChannel) (chunk : IdChunk)
      (at_phase : call.phase = .feeding remaining (.forwarding channel chunk))
      (connected : call.connected = true) (room : call.resp.length < config.streamBufferSize) :
      CallMoves config state call
        { call with
          phase := .feeding remaining (.receiving channel)
          resp := call.resp ++ [.chunk chunk] }
        state.inflight state.nextWorker
  | fail (remaining : Nat) (error : DispatchError)
      (at_phase : call.phase = .feeding remaining (.failing error))
      (connected : call.connected = true) (room : call.resp.length < config.streamBufferSize) :
      CallMoves config state call
        { call with phase := .returned, resp := call.resp ++ [.error error] }
        state.inflight state.nextWorker
  | giveUp (remaining : Nat) (stage : Stage)
      (at_phase : call.phase = .feeding remaining stage)
      (sending : (∃ channel chunk, stage = .forwarding channel chunk) ∨
        ∃ error, stage = .failing error)
      (gone : call.connected = false) :
      CallMoves config state call { call with phase := .returned } state.inflight state.nextWorker
  | leave (at_phase : call.phase = .returned) :
      CallMoves config state call { call with phase := .done } (state.inflight - 1)
        state.nextWorker

/-- The steps of a worker that touch no chunk channel. -/
inductive WorkMoves (config : ServerConfig) (state : State) (now : ServerLayout.Ty)
    (worker : Worker) : Worker → Prop where
  | start (at_phase : worker.phase = .starting) (fits : config.chunkBytes ≤ isizeMax) :
      WorkMoves config state now worker
        { worker with
          buff := List.replicate config.chunkBytes 0
          buffPos := 0
          phase := .waiting }
  | takeShutdown (inbox : List WorkRequest) (at_phase : worker.phase = .waiting)
      (next : worker.inbox = .shutdown :: inbox) :
      WorkMoves config state now worker { worker with inbox := inbox, phase := .stopping }
  | pause (job : Job) (at_phase : worker.phase = .handling job)
      (generating : job.point = .generating) (more : job.generated < job.request.chunkSize)
      (pending : (worker.generator.pollId now).2.IsPending) :
      WorkMoves config state now worker
        { worker with generator := (worker.generator.pollId now).1 }
  | write (job : Job) (id : ServerId) (at_phase : worker.phase = .handling job)
      (generating : job.point = .generating) (more : job.generated < job.request.chunkSize)
      (ready : (worker.generator.pollId now).2 = .ready id)
      (fits : worker.buffPos + SNOWFLAKE_ID_SIZE ≤ worker.buff.length) :
      WorkMoves config state now worker
        { worker with
          generator := (worker.generator.pollId now).1
          buff := worker.buff.take worker.buffPos ++ toLeBytes id ++
            worker.buff.drop (worker.buffPos + SNOWFLAKE_ID_SIZE)
          buffPos := worker.buffPos + SNOWFLAKE_ID_SIZE
          phase := .handling ⟨job.request, job.generated + 1,
            if worker.buffPos + SNOWFLAKE_ID_SIZE = config.chunkBytes then .checking
            else .generating⟩ }
  | rest (job : Job) (at_phase : worker.phase = .handling job)
      (generating : job.point = .generating) (all : ¬ job.generated < job.request.chunkSize)
      (some : 0 < worker.buffPos) (alive : state.isClosed job.request = false) :
      WorkMoves config state now worker
        { worker with
          buffPos := 0
          phase := .handling
            { job with point := .sendingRest (worker.buff.take worker.buffPos) } }
  | full (job : Job) (at_phase : worker.phase = .handling job)
      (checking : job.point = .checking) (alive : state.isClosed job.request = false) :
      WorkMoves config state now worker
        { worker with phase := .handling { job with point := .sendingFull worker.buff } }

/-- Why `handle_stream_request` returns without sending. -/
inductive Finishes (state : State) (worker : Worker) (job : Job) : Prop where
  | exhausted (generating : job.point = .generating)
      (all : ¬ job.generated < job.request.chunkSize)
      (nothing : ¬ (0 < worker.buffPos ∧ state.isClosed job.request = false))
  | closed (sending : job.point ≠ .generating) (closed : state.isClosed job.request = true)

/-- Everything one step can do. -/
inductive Moves (config : ServerConfig) (state : State) : Label → State → Prop where
  | arrive (count : Nat) (bound : count < usizeRange) :
      Moves config state (.arrive count)
        { state.setCall state.arrivals
            { Call.absent with count := count, phase := .arrived } with
          arrivals := state.arrivals + 1 }
  | call (index : Nat) (next : Call) (inflight : BitVec 64) (nextWorker : Nat)
      (moves : CallMoves config state (state.calls index) next inflight nextWorker) :
      Moves config state (.call index)
        { state.setCall index next with inflight := inflight, nextWorker := nextWorker }
  | reserve (index remaining worker chunkSize : Nat)
      (at_phase : (state.calls index).phase = .feeding remaining (.sending worker chunkSize))
      (up : (state.workers worker).isDown = false) (room : (state.workers worker).HasRoom) :
      Moves config state (.call index)
        ((state.setCall index
          { state.calls index with
            phase := .feeding remaining (.pushing worker chunkSize) }).setWorker worker
          { state.workers worker with permits := index :: (state.workers worker).permits })
  | send (index remaining worker chunkSize : Nat)
      (at_phase : (state.calls index).phase = .feeding remaining (.pushing worker chunkSize)) :
      Moves config state (.call index)
        ((state.setCall index
          { state.calls index with
            phase := .feeding remaining (.receiving
              ⟨(state.calls index).channels, worker, chunkSize, .queued, false, []⟩) }).setWorker
          worker
          { state.workers worker with
            inbox := (state.workers worker).inbox ++
              [.stream ⟨index, (state.calls index).channels, chunkSize⟩]
            permits := (state.workers worker).permits.erase index })
  | receive (index : Nat) (item : Item) (resp : List Item)
      (stream : (state.calls index).hasStream = true)
      (connected : (state.calls index).connected = true)
      (waiting : (state.calls index).resp = item :: resp) :
      Moves config state (.receive index)
        (state.setCall index
          { state.calls index with
            resp := resp
            received := (state.calls index).received ++ [item] })
  | disconnect (index : Nat) (stream : (state.calls index).hasStream = true)
      (connected : (state.calls index).connected = true) :
      Moves config state (.disconnect index)
        (state.setCall index { state.calls index with connected := false, resp := [] })
  | work (index : Nat) (now : ServerLayout.Ty) (next : Worker)
      (known : index < config.numWorkers)
      (moves : WorkMoves config state now (state.workers index) next) :
      Moves config state (.work index now) (state.setWorker index next)
  | allocationPanic (index : Nat) (now : ServerLayout.Ty) (known : index < config.numWorkers)
      (at_phase : (state.workers index).phase = .starting)
      (large : isizeMax < config.chunkBytes) :
      Moves config state (.work index now)
        ((state.dropInbox (state.workers index).inbox).setWorker index
          { state.workers index with inbox := [], phase := .panicked })
  | takeStream (index : Nat) (now : ServerLayout.Ty) (request : StreamRequest)
      (inbox : List WorkRequest) (known : index < config.numWorkers)
      (at_phase : (state.workers index).phase = .waiting)
      (next : (state.workers index).inbox = .stream request :: inbox) :
      Moves config state (.work index now)
        ((state.mapChannel request .hold).setWorker index
          { state.workers index with
            inbox := inbox
            phase := .handling ⟨request, 0, .generating⟩ })
  | indexPanic (index : Nat) (now : ServerLayout.Ty) (job : Job) (id : ServerId)
      (known : index < config.numWorkers)
      (at_phase : (state.workers index).phase = .handling job)
      (generating : job.point = .generating) (more : job.generated < job.request.chunkSize)
      (ready : ((state.workers index).generator.pollId now).2 = .ready id)
      (beyond : (state.workers index).buff.length <
        (state.workers index).buffPos + SNOWFLAKE_ID_SIZE) :
      Moves config state (.work index now)
        (((state.mapChannel job.request .drop).dropInbox (state.workers index).inbox).setWorker
          index
          { state.workers index with
            generator := ((state.workers index).generator.pollId now).1
            inbox := []
            phase := .panicked })
  | finish (index : Nat) (now : ServerLayout.Ty) (job : Job) (known : index < config.numWorkers)
      (at_phase : (state.workers index).phase = .handling job)
      (finishes : Finishes state (state.workers index) job) :
      Moves config state (.work index now) (finishJob state index (state.workers index) job)
  | pushFull (index : Nat) (now : ServerLayout.Ty) (job : Job) (bytes : IdChunk)
      (known : index < config.numWorkers)
      (at_phase : (state.workers index).phase = .handling job)
      (sending : job.point = .sendingFull bytes) (alive : state.isClosed job.request = false)
      (room : state.queued job.request < chunkCapacity) :
      Moves config state (.work index now)
        ((state.mapChannel job.request (.push bytes)).setWorker index
          { state.workers index with
            buffPos := 0
            phase := .handling { job with point := .generating }
            sent := (state.workers index).sent ++ [bytes] })
  | pushRest (index : Nat) (now : ServerLayout.Ty) (job : Job) (bytes : IdChunk)
      (known : index < config.numWorkers)
      (at_phase : (state.workers index).phase = .handling job)
      (sending : job.point = .sendingRest bytes) (alive : state.isClosed job.request = false)
      (room : state.queued job.request < chunkCapacity) :
      Moves config state (.work index now)
        (finishJob (state.mapChannel job.request (.push bytes)) index
          { state.workers index with sent := (state.workers index).sent ++ [bytes] } job)
  | stop (index : Nat) (now : ServerLayout.Ty) (known : index < config.numWorkers)
      (at_phase : (state.workers index).phase = .stopping) :
      Moves config state (.work index now)
        ((state.dropInbox (state.workers index).inbox).setWorker index
          { state.workers index with inbox := [], phase := .stopped })
  | abort (index : Nat) (known : index < config.numWorkers)
      (at_phase : (state.workers index).phase = .starting) (some : 0 < config.chunkBytes)
      (fits : config.chunkBytes ≤ isizeMax) :
      Moves config state (.abort index) { state with aborted := true }
  | beginShutdown (timeout : Bool) (at_phase : state.manager = .idle) :
      Moves config state (.manage timeout) { state with shutdown := true, manager := .draining }
  | drain (timeout : Bool) (at_phase : state.manager = .draining)
      (ended : state.inflight = 0 ∨ timeout = true) :
      Moves config state (.manage timeout) { state with manager := .cancelling }
  | cancel (timeout : Bool) (at_phase : state.manager = .cancelling) :
      Moves config state (.manage timeout)
        { state with cancelled := true, manager := .notifying 0 }
  | skip (timeout : Bool) (index : Nat) (at_phase : state.manager = .notifying index)
      (known : index < config.numWorkers) (down : (state.workers index).isDown = true) :
      Moves config state (.manage timeout) { state with manager := .notifying (index + 1) }
  | notify (timeout : Bool) (index : Nat) (at_phase : state.manager = .notifying index)
      (known : index < config.numWorkers) (up : (state.workers index).isDown = false)
      (room : (state.workers index).HasRoom) :
      Moves config state (.manage timeout)
        { state.setWorker index
            { state.workers index with inbox := (state.workers index).inbox ++ [.shutdown] } with
          manager := .notifying (index + 1) }
  | finishShutdown (timeout : Bool) (index : Nat) (at_phase : state.manager = .notifying index)
      (all : ¬ index < config.numWorkers) :
      Moves config state (.manage timeout) { state with manager := .finished }

section Inversion

variable {config : ServerConfig} {state next : State}

private theorem moves_of_callMoves {index : Nat} {call : Call}
    (moves : CallMoves config state (state.calls index) call state.inflight state.nextWorker) :
    Moves config state (.call index) (state.setCall index call) :=
  .call index call state.inflight state.nextWorker moves

theorem moves_of_feedStep {index remaining : Nat} {stage : Stage}
    (at_phase : (state.calls index).phase = .feeding remaining stage)
    (stepped : feedStep config state index remaining stage = some next) :
    Moves config state (.call index) next := by
  cases stage with
  | top =>
      simp only [feedStep] at stepped
      split at stepped
      · next more =>
          cases stepped
          exact moves_of_callMoves (.cut remaining at_phase more)
      · next none =>
          cases stepped
          obtain rfl : remaining = 0 := by omega
          exact moves_of_callMoves (.complete at_phase)
  | checking chunkSize =>
      simp only [feedStep] at stepped
      split at stepped
      · next cancelled =>
          cases stepped
          exact moves_of_callMoves (.cancelled remaining chunkSize at_phase cancelled)
      · next running =>
          cases stepped
          exact moves_of_callMoves
            (.proceed remaining chunkSize at_phase (Bool.eq_false_iff.mpr running))
  | picking chunkSize =>
      simp only [feedStep, Option.some.injEq] at stepped
      cases stepped
      exact .call index _ _ _ (.pick remaining chunkSize at_phase)
  | sending worker chunkSize =>
      simp only [feedStep] at stepped
      split at stepped
      · next down =>
          cases stepped
          exact moves_of_callMoves (.down remaining worker chunkSize at_phase down)
      · next up =>
          split at stepped
          · next room =>
              cases stepped
              exact .reserve index remaining worker chunkSize at_phase
                (Bool.eq_false_iff.mpr up) room
          · cases stepped
  | pushing worker chunkSize =>
      simp only [feedStep, Option.some.injEq] at stepped
      cases stepped
      exact .send index remaining worker chunkSize at_phase
  | receiving channel =>
      simp only [feedStep] at stepped
      split at stepped
      · next chunk queue waiting =>
          cases stepped
          exact moves_of_callMoves (.take remaining channel chunk queue at_phase waiting)
      · next empty =>
          split at stepped
          · next dropped =>
              cases stepped
              exact moves_of_callMoves (.drained remaining channel at_phase empty dropped)
          · cases stepped
  | forwarding channel chunk =>
      simp only [feedStep] at stepped
      split at stepped
      · next gone =>
          cases stepped
          exact moves_of_callMoves (.giveUp remaining _ at_phase (Or.inl ⟨channel, chunk, rfl⟩)
            (by simpa using gone))
      · next connected =>
          split at stepped
          · next room =>
              cases stepped
              exact moves_of_callMoves
                (.forward remaining channel chunk at_phase (by simpa using connected) room)
          · cases stepped
  | failing error =>
      simp only [feedStep] at stepped
      split at stepped
      · next gone =>
          cases stepped
          exact moves_of_callMoves
            (.giveUp remaining _ at_phase (Or.inr ⟨error, rfl⟩) (by simpa using gone))
      · next connected =>
          split at stepped
          · next room =>
              cases stepped
              exact moves_of_callMoves
                (.fail remaining error at_phase (by simpa using connected) room)
          · cases stepped

theorem moves_of_callStep {index : Nat} (stepped : callStep config state index = some next) :
    Moves config state (.call index) next := by
  simp only [callStep] at stepped
  split at stepped
  · next at_phase =>
      split at stepped
      · next down =>
          cases stepped
          exact moves_of_callMoves (.refuse at_phase down)
      · next up =>
          cases stepped
          exact moves_of_callMoves (.check at_phase (Bool.eq_false_iff.mpr up))
  · next at_phase =>
      split at stepped
      · next none =>
          cases stepped
          exact moves_of_callMoves (.zero at_phase none)
      · next some =>
          split at stepped
          · next many =>
              cases stepped
              exact moves_of_callMoves (.tooMany at_phase some many)
          · next allowed =>
              cases stepped
              exact .call index _ _ _ (.count at_phase some (Nat.le_of_not_lt allowed))
  · next at_phase =>
      split at stepped
      · next capacity =>
          cases stepped
          exact moves_of_callMoves (.spawn at_phase capacity)
      · next capacity =>
          cases stepped
          exact moves_of_callMoves (.burst at_phase capacity)
  · next remaining stage at_phase => exact moves_of_feedStep at_phase stepped
  · next at_phase =>
      cases stepped
      exact .call index _ _ _ (.leave at_phase)
  all_goals cases stepped

theorem moves_of_jobStep {index : Nat} {now : ServerLayout.Ty} {job : Job}
    (known : index < config.numWorkers) (at_phase : (state.workers index).phase = .handling job)
    (stepped : jobStep config state index now job = some next) :
    Moves config state (.work index now) next := by
  simp only [jobStep] at stepped
  split at stepped
  · next generating =>
      split at stepped
      · next more =>
          split at stepped
          · next generator id polled =>
              have generatorEq := congrArg Prod.fst polled
              have ready := congrArg Prod.snd polled
              simp only at generatorEq ready
              subst generatorEq
              split at stepped
              · next fits =>
                  cases stepped
                  exact .work index now _ known (.write job id at_phase generating more ready fits)
              · next beyond =>
                  cases stepped
                  exact .indexPanic index now job id known at_phase generating more ready
                    (Nat.lt_of_not_le beyond)
          · next generator yieldFor polled =>
              have generatorEq := congrArg Prod.fst polled
              have pending := congrArg Prod.snd polled
              simp only at generatorEq pending
              subst generatorEq
              cases stepped
              exact .work index now _ known (.pause job at_phase generating more ⟨_, pending⟩)
      · next all =>
          split at stepped
          · next some =>
              cases stepped
              exact .work index now _ known (.rest job at_phase generating all some.1 some.2)
          · next nothing =>
              cases stepped
              exact .finish index now job known at_phase (.exhausted generating all nothing)
  · next checking =>
      split at stepped
      · next closed =>
          cases stepped
          exact .finish index now job known at_phase (.closed (by simp [checking]) closed)
      · next alive =>
          cases stepped
          exact .work index now _ known
            (.full job at_phase checking (Bool.eq_false_iff.mpr alive))
  · next bytes sending =>
      split at stepped
      · next closed =>
          cases stepped
          exact .finish index now job known at_phase (.closed (by simp [sending]) closed)
      · next alive =>
          split at stepped
          · next room =>
              cases stepped
              exact .pushFull index now job bytes known at_phase sending
                (Bool.eq_false_iff.mpr alive) room
          · cases stepped
  · next bytes sending =>
      split at stepped
      · next closed =>
          cases stepped
          exact .finish index now job known at_phase (.closed (by simp [sending]) closed)
      · next alive =>
          split at stepped
          · next room =>
              cases stepped
              exact .pushRest index now job bytes known at_phase sending
                (Bool.eq_false_iff.mpr alive) room
          · cases stepped

theorem moves_of_workStep {index : Nat} {now : ServerLayout.Ty}
    (stepped : workStep config state index now = some next) :
    Moves config state (.work index now) next := by
  simp only [workStep] at stepped
  split at stepped
  · next known =>
      split at stepped
      · next at_phase =>
          split at stepped
          · next fits =>
              cases stepped
              exact .work index now _ known (.start at_phase fits)
          · next large =>
              cases stepped
              exact .allocationPanic index now known at_phase (Nat.lt_of_not_le large)
      · next at_phase =>
          split at stepped
          · next request inbox waiting =>
              cases stepped
              exact .takeStream index now request inbox known at_phase waiting
          · next inbox waiting =>
              cases stepped
              exact .work index now _ known (.takeShutdown inbox at_phase waiting)
          · cases stepped
      · next job at_phase => exact moves_of_jobStep known at_phase stepped
      · next at_phase =>
          cases stepped
          exact .stop index now known at_phase
      all_goals cases stepped
  · cases stepped

theorem moves_of_manageStep {timeout : Bool}
    (stepped : manageStep config state timeout = some next) :
    Moves config state (.manage timeout) next := by
  simp only [manageStep] at stepped
  split at stepped
  · next at_phase =>
      cases stepped
      exact .beginShutdown timeout at_phase
  · next at_phase =>
      split at stepped
      · next ended =>
          cases stepped
          exact .drain timeout at_phase ended
      · cases stepped
  · next at_phase =>
      cases stepped
      exact .cancel timeout at_phase
  · next index at_phase =>
      split at stepped
      · next known =>
          split at stepped
          · next down =>
              cases stepped
              exact .skip timeout index at_phase known down
          · next up =>
              split at stepped
              · next room =>
                  cases stepped
                  exact .notify timeout index at_phase known (Bool.eq_false_iff.mpr up) room
              · cases stepped
      · next all =>
          cases stepped
          exact .finishShutdown timeout index at_phase all
  · cases stepped

theorem moves_of_abortStep {index : Nat} (stepped : abortStep config state index = some next) :
    Moves config state (.abort index) next := by
  simp only [abortStep] at stepped
  split at stepped
  · next enabled =>
      cases stepped
      exact .abort index enabled.1 enabled.2.1 enabled.2.2.1 enabled.2.2.2
  · cases stepped

/-- Only a process that runs takes steps. -/
theorem step_eq_some {label : Label} :
    step config state label = some next ↔
      state.aborted = false ∧ taskStep config state label = some next := by
  cases aborted : state.aborted <;> simp [step, aborted]

theorem moves_of_step {label : Label} (stepped : step config state label = some next) :
    Moves config state label next := by
  obtain ⟨_, stepped⟩ := step_eq_some.mp stepped
  cases label with
  | arrive count =>
      simp only [taskStep] at stepped
      split at stepped
      · next bound =>
          cases stepped
          exact .arrive count bound
      · cases stepped
  | call index => exact moves_of_callStep stepped
  | receive index =>
      simp only [taskStep, receiveStep] at stepped
      split at stepped
      · next stream =>
          rw [Bool.and_eq_true] at stream
          split at stepped
          · next item resp waiting =>
              cases stepped
              exact .receive index item resp stream.1 stream.2 waiting
          · cases stepped
      · cases stepped
  | disconnect index =>
      simp only [taskStep, disconnectStep] at stepped
      split at stepped
      · next stream =>
          rw [Bool.and_eq_true] at stream
          cases stepped
          exact .disconnect index stream.1 stream.2
      · cases stepped
  | work index now => exact moves_of_workStep stepped
  | abort index => exact moves_of_abortStep stepped
  | manage timeout => exact moves_of_manageStep stepped

end Inversion

end Ferroid.Server
