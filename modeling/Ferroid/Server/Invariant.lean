import Ferroid.Server.Step

/-!
Contract: the invariant that ties calls, chunk channels and workers together.

Owns what holds of a call at every stage of its feed task (the accounts of the
chunks its client will get), what holds of a worker at every point of a request,
and the link between the two: who holds the sender of which chunk channel.

Does not own the proof that steps keep it (`Server.Preservation`).
-/

namespace Ferroid.Server

open Ferroid.Id
open Ferroid.Generator

/-! ## Chunks -/

/-- IDs in a chunk. -/
def chunkIds (chunk : IdChunk) : Nat := chunk.length / SNOWFLAKE_ID_SIZE

/-- A chunk of at least one and at most `ids_per_chunk` whole IDs. -/
def ChunkOk (config : ServerConfig) (chunk : IdChunk) : Prop :=
  ∃ ids, chunk.length = ids * SNOWFLAKE_ID_SIZE ∧ 0 < ids ∧ ids ≤ config.idsPerChunk

theorem chunkIds_eq {chunk : IdChunk} {ids : Nat}
    (length : chunk.length = ids * SNOWFLAKE_ID_SIZE) : chunkIds chunk = ids := by
  rw [chunkIds, length]
  exact Nat.mul_div_cancel _ (by decide)

/-! ## Calls -/

/-- Every item that has reached the response channel is a chunk. -/
def Delivered (config : ServerConfig) (call : Call) (chunks : List IdChunk) : Prop :=
  call.received ++ call.resp = chunks.map Item.chunk ∧ ∀ chunk ∈ chunks, ChunkOk config chunk

/-- A shutdown dropped a request of this stream. More requests were to follow, and
none of them will be dispatched. -/
def Lost (cancelled : Bool) (remaining : Nat) : Prop :=
  cancelled = true ∧ 0 < remaining

/-- What a feed task owes its client at each stage, given the sizes of the chunks
that have reached the response channel. -/
def StageAccounts (config : ServerConfig) (cancelled : Bool) (count : Nat) (sizes : List Nat)
    (remaining : Nat) : Stage → Prop
  | .top => Accounts config.idsPerChunk count sizes remaining ∨ Lost cancelled remaining
  | .checking chunkSize =>
      Accounts config.idsPerChunk count (sizes ++ [chunkSize]) remaining ∨ cancelled = true
  | .picking chunkSize | .sending _ chunkSize | .pushing _ chunkSize =>
      Accounts config.idsPerChunk count (sizes ++ [chunkSize]) remaining
  | .receiving channel =>
      if channel.fed then
        Accounts config.idsPerChunk count (sizes ++ channel.queue.map chunkIds) remaining
      else if channel.sender = .dropped then
        Accounts config.idsPerChunk count sizes remaining ∨ Lost cancelled remaining
      else
        Accounts config.idsPerChunk count (sizes ++ [channel.size]) remaining
  | .forwarding _ chunk =>
      Accounts config.idsPerChunk count (sizes ++ [chunkIds chunk]) remaining
  | .failing _ => True

/-- What holds of a stage whether or not the client is there: a request yields at
most one chunk, and only then can a chunk be forwarded. -/
def StageShape (config : ServerConfig) : Stage → Prop
  | .top | .failing _ => True
  | .checking chunkSize | .picking chunkSize | .sending _ chunkSize | .pushing _ chunkSize =>
      chunkSize ≤ config.idsPerChunk
  | .receiving channel =>
      (channel.fed = false → channel.queue = []) ∧ channel.queue.length ≤ 1 ∧
        ∀ chunk ∈ channel.queue, ChunkOk config chunk
  | .forwarding channel chunk =>
      channel.fed = true ∧ channel.queue = [] ∧ ChunkOk config chunk

/-- A stream that has ended: an error was queued for its client, or every chunk. -/
def Complete (config : ServerConfig) (call : Call) : Prop :=
  (∃ error, Item.error error ∈ call.received ++ call.resp) ∨
    ∃ chunks, Delivered config call chunks ∧
      Accounts config.idsPerChunk call.count (chunks.map chunkIds) 0

/-- What holds of a call, phase by phase. -/
def CallOk (config : ServerConfig) (cancelled : Bool) (call : Call) : Prop :=
  match call.phase with
  | .absent | .arrived | .checked => call.received = [] ∧ call.resp = []
  | .counted => 0 < call.count ∧ call.received = [] ∧ call.resp = []
  | .rejected _ | .panicked => True
  | .feeding remaining stage =>
      StageShape config stage ∧
        (call.connected = true → ∃ chunks, Delivered config call chunks ∧
          StageAccounts config cancelled call.count (chunks.map chunkIds) remaining stage)
  | .returned | .done => call.connected = true → Complete config call

/-! ## Links -/

/-- The request at a worker carries the sender of a channel whose receiver is
alive. -/
def Linked (call : Call) (worker : Nat) (request : StreamRequest) (sender : Sender)
    (fed : Bool) : Prop :=
  ∃ channel, call.channel? request.channel = some channel ∧ channel.worker = worker ∧
    channel.size = request.chunkSize ∧ channel.sender = sender ∧ channel.fed = fed

/-- The feed task has returned and dropped its receiver. -/
def Gone (call : Call) : Prop := call.phase = .returned ∨ call.phase = .done

/-- The request at a worker has been answered; its receiver may be gone. -/
def Served (call : Call) (worker : Nat) (request : StreamRequest) : Prop :=
  Linked call worker request .held true ∨ Gone call

/-- The feed task will ask for more after the request it waits for. -/
def MoreToCome (call : Call) : Prop :=
  ∃ remaining channel, call.phase = .feeding remaining (.receiving channel) ∧ 0 < remaining

theorem channel?_eq_some {call : Call} {number : Nat} {channel : ChunkChannel} :
    call.channel? number = some channel ↔
      channel.number = number ∧ ∃ remaining, call.phase = .feeding remaining (.receiving channel) ∨
        ∃ chunk, call.phase = .feeding remaining (.forwarding channel chunk) := by
  unfold Call.channel?
  split
  · next remaining held at_phase =>
      rw [at_phase]
      by_cases same : held.number = number
      · simp only [same, if_true, Option.some.injEq, CallPhase.feeding.injEq, Stage.receiving.injEq,
          reduceCtorEq, and_false, exists_false, or_false]
        constructor
        · rintro rfl
          exact ⟨same, remaining, rfl, rfl⟩
        · rintro ⟨_, _, _, rfl⟩
          rfl
      · simp only [same, if_false, reduceCtorEq, CallPhase.feeding.injEq, Stage.receiving.injEq,
          and_false, exists_false, or_false, false_iff, not_and, not_exists]
        rintro wanted _ _ rfl
        exact same wanted
  · next remaining held chunk at_phase =>
      rw [at_phase]
      by_cases same : held.number = number
      · simp only [same, if_true, Option.some.injEq, CallPhase.feeding.injEq,
          Stage.forwarding.injEq, reduceCtorEq, and_false, false_or]
        constructor
        · rintro rfl
          exact ⟨same, remaining, chunk, rfl, rfl, rfl⟩
        · rintro ⟨_, _, _, _, rfl, _⟩
          rfl
      · simp only [same, if_false, reduceCtorEq, CallPhase.feeding.injEq, Stage.forwarding.injEq,
          and_false, false_or, false_iff, not_and, not_exists]
        rintro wanted _ _ _ rfl
        exact absurd wanted same
  · next notReceiving notForwarding =>
      simp only [reduceCtorEq, false_iff, not_and, not_exists, not_or]
      intro _ remaining
      exact ⟨fun at_phase => notReceiving remaining channel at_phase,
        fun chunk at_phase => notForwarding remaining channel chunk at_phase⟩

/-- A call has at most one chunk channel. -/
theorem channel?_unique {call : Call} {left right : Nat} {leftChannel rightChannel : ChunkChannel}
    (leftFound : call.channel? left = some leftChannel)
    (rightFound : call.channel? right = some rightChannel) : leftChannel = rightChannel := by
  obtain ⟨_, _, leftPhase⟩ := channel?_eq_some.mp leftFound
  obtain ⟨_, _, rightPhase⟩ := channel?_eq_some.mp rightFound
  rcases leftPhase with leftPhase | ⟨_, leftPhase⟩ <;>
    rcases rightPhase with rightPhase | ⟨_, rightPhase⟩ <;>
    rw [leftPhase] at rightPhase <;> cases rightPhase <;> rfl

/-- So it is linked to one worker only. -/
theorem Linked.unique {call : Call} {left right : Nat} {leftRequest rightRequest : StreamRequest}
    {leftSender rightSender : Sender} {leftFed rightFed : Bool}
    (leftLinked : Linked call left leftRequest leftSender leftFed)
    (rightLinked : Linked call right rightRequest rightSender rightFed) :
    left = right ∧ leftSender = rightSender ∧ leftFed = rightFed := by
  obtain ⟨leftChannel, leftFound, rfl, _, rfl, rfl⟩ := leftLinked
  obtain ⟨rightChannel, rightFound, rfl, _, rfl, rfl⟩ := rightLinked
  obtain rfl := channel?_unique leftFound rightFound
  exact ⟨rfl, rfl, rfl⟩

theorem Linked.not_gone {call : Call} {worker : Nat} {request : StreamRequest} {sender : Sender}
    {fed : Bool} (linked : Linked call worker request sender fed) : ¬ Gone call := by
  obtain ⟨channel, found, _⟩ := linked
  obtain ⟨_, _, at_phase | ⟨_, at_phase⟩⟩ := channel?_eq_some.mp found <;>
    simp [Gone, at_phase]

/-! ## Workers -/

/-- A worker fills its buffer for a request; the receiver is alive. -/
structure Filling (config : ServerConfig) (call : Call) (index buffPos : Nat) (job : Job) :
    Prop where
  linked : Linked call index job.request .held false
  position : buffPos = job.generated * SNOWFLAKE_ID_SIZE
  bound : job.generated ≤ job.request.chunkSize
  room : job.generated < config.idsPerChunk ∨ job.request.chunkSize = 0

/-- The chunk of a request is complete and not sent; the receiver is alive. -/
structure Filled (call : Call) (index : Nat) (bytes : IdChunk) (job : Job) : Prop where
  linked : Linked call index job.request .held false
  length : bytes.length = job.request.chunkSize * SNOWFLAKE_ID_SIZE
  all : job.generated = job.request.chunkSize
  positive : 0 < job.request.chunkSize

/-- The chunk of a request is sent. -/
structure Answered (call : Call) (index buffPos : Nat) (job : Job) : Prop where
  served : Served call index job.request
  all : job.generated = job.request.chunkSize
  empty : buffPos = 0

/-- What holds of a worker inside `handle_stream_request`, point by point. -/
def JobOk (config : ServerConfig) (call : Call) (index : Nat) (buff : List UInt8) (buffPos : Nat)
    (job : Job) : Prop :=
  match job.point with
  | .generating => Filling config call index buffPos job ∨ Answered call index buffPos job
  | .checking => Filled call index buff job
  | .sendingFull bytes => Filled call index bytes job
  | .sendingRest bytes => Filled call index bytes job ∧ buffPos = 0

/-- What holds of a worker, phase by phase. -/
def PhaseOk (config : ServerConfig) (cancelled : Bool) (calls : Nat → Call) (index : Nat)
    (worker : Worker) : Prop :=
  match worker.phase with
  | .starting =>
      worker.buffPos = 0 ∧
        (isizeMax < config.chunkBytes → ∀ request, WorkRequest.stream request ∉ worker.inbox)
  | .waiting => worker.buff.length = config.chunkBytes ∧ worker.buffPos = 0
  | .handling job =>
      worker.buff.length = config.chunkBytes ∧ job.request.chunkSize ≤ config.idsPerChunk ∧
        JobOk config (calls job.request.call) index worker.buff worker.buffPos job
  | .stopping =>
      cancelled = true ∧
        ∀ request, WorkRequest.stream request ∈ worker.inbox → MoreToCome (calls request.call)
  | .stopped => cancelled = true
  | .panicked => isizeMax < config.chunkBytes

structure WorkerOk (config : ServerConfig) (cancelled : Bool) (calls : Nat → Call) (index : Nat)
    (worker : Worker) : Prop where
  short : worker.inbox.length ≤ inboxCapacity
  queued : ∀ request, WorkRequest.stream request ∈ worker.inbox →
    Linked (calls request.call) index request .queued false ∧
      request.chunkSize ≤ config.idsPerChunk
  notified : WorkRequest.shutdown ∈ worker.inbox → cancelled = true
  sentOk : ∀ chunk ∈ worker.sent, ChunkOk config chunk
  phaseOk : PhaseOk config cancelled calls index worker

/-- A worker goes down when it is cancelled or cannot have its buffer. -/
theorem WorkerOk.down {config : ServerConfig} {cancelled : Bool} {calls : Nat → Call}
    {index : Nat} {worker : Worker} (ok : WorkerOk config cancelled calls index worker)
    (down : worker.isDown = true) : cancelled = true ∨ isizeMax < config.chunkBytes := by
  have phaseOk := ok.phaseOk
  unfold Worker.isDown at down
  unfold PhaseOk at phaseOk
  split at down
  · next at_phase =>
      rw [at_phase] at phaseOk
      exact Or.inl phaseOk
  · next at_phase =>
      rw [at_phase] at phaseOk
      exact Or.inr phaseOk
  · cases down

/-! ## The server -/

structure Inv (config : ServerConfig) (state : State) : Prop where
  absent : ∀ index, state.arrivals ≤ index → state.calls index = Call.absent
  calls : ∀ index, CallOk config state.cancelled (state.calls index)
  workers : ∀ index, WorkerOk config state.cancelled state.calls index (state.workers index)
  notifying : (∃ index, state.manager = .notifying index) → state.cancelled = true

theorem inv_initial (config : ServerConfig) : Inv config (initial config) where
  absent := fun _ _ => rfl
  calls := fun _ => ⟨rfl, rfl⟩
  workers := fun _ => ⟨Nat.zero_le _, by simp [initial], by simp [initial], by simp [initial],
    ⟨rfl, by simp [initial]⟩⟩
  notifying := by
    rintro ⟨_, at_phase⟩
    cases at_phase

/-- A call that is present has arrived. -/
theorem Inv.lt_arrivals {config : ServerConfig} {state : State} (inv : Inv config state)
    {index : Nat} (present : state.calls index ≠ Call.absent) : index < state.arrivals := by
  by_contra beyond
  exact present (inv.absent index (Nat.le_of_not_lt beyond))

end Ferroid.Server
