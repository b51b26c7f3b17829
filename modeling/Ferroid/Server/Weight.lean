import Ferroid.Library.Total
import Ferroid.Server.Preservation

/-!
Contract: the work that is left in the server.

Owns a weight of server states that every step lowers, except the arrival of a
request, a poll that finds no ID ready and the end of the process. So a server that
gets no new requests only goes on for as long as its clocks keep it waiting.

Does not own which steps are possible.
-/

namespace Ferroid.Server

open Ferroid.Id
open Ferroid.Generator
open Ferroid.Library

/-! ## Weights -/

/-- A request in an inbox: taking it, its polls, its chunk and its return. -/
def requestWeight (chunkSize : Nat) : Nat := 6 * chunkSize + 7

/-- IDs that a feed task has still to ask for. -/
def feedWeight (remaining : Nat) : Nat := 19 * remaining + 2

def stageWeight (remaining : Nat) : Stage → Nat
  | .top => feedWeight remaining
  | .checking chunkSize => feedWeight remaining + requestWeight chunkSize + 5
  | .picking chunkSize => feedWeight remaining + requestWeight chunkSize + 4
  | .sending _ chunkSize => feedWeight remaining + requestWeight chunkSize + 3
  | .pushing _ chunkSize => feedWeight remaining + requestWeight chunkSize + 2
  | .receiving channel => feedWeight remaining + 3 * channel.queue.length + 1
  | .forwarding channel _ => feedWeight remaining + 3 * channel.queue.length + 3
  | .failing _ => 3

def phaseWeight (count : Nat) : CallPhase → Nat
  | .arrived => feedWeight count + 3
  | .checked => feedWeight count + 2
  | .counted => feedWeight count + 1
  | .feeding remaining stage => stageWeight remaining stage
  | .returned => 1
  | .absent | .rejected _ | .panicked | .done => 0

/-- A call, with what its client has not taken yet. -/
def callWeight (call : Call) : Nat :=
  phaseWeight call.count call.phase + call.resp.length + call.connected.toNat

def jobWeight (job : Job) : Nat :=
  let polls := 6 * (job.request.chunkSize - job.generated)
  match job.point with
  | .generating => polls + 6
  | .checking => polls + 11
  | .sendingFull _ => polls + 10
  | .sendingRest _ => 5

def workWeight : WorkRequest → Nat
  | .stream request => requestWeight request.chunkSize
  | .shutdown => 1

def workerPhaseWeight : WorkerPhase → Nat
  | .starting => 3
  | .waiting => 2
  | .handling job => jobWeight job + 2
  | .stopping => 1
  | .stopped | .panicked => 0

def workerWeight (worker : Worker) : Nat :=
  workerPhaseWeight worker.phase + (worker.inbox.map workWeight).sum

def managerWeight (numWorkers : Nat) : ManagerPhase → Nat
  | .idle => 2 * numWorkers + 4
  | .draining => 2 * numWorkers + 3
  | .cancelling => 2 * numWorkers + 2
  | .notifying index => 2 * (numWorkers - index) + 1
  | .finished => 0

/-- The work left in a state. -/
def weight (config : ServerConfig) (state : State) : Nat :=
  total callWeight state.arrivals state.calls +
    total workerWeight config.numWorkers state.workers +
    managerWeight config.numWorkers state.manager

/-! ## The parts -/

section Parts

variable {config : ServerConfig} {state : State}

/-- The steps of a call that touch no worker. -/
theorem CallMoves.lighter (positive : 0 < config.idsPerChunk) {call next : Call}
    {inflight : BitVec 64} {nextWorker : Nat}
    (moves : CallMoves config state call next inflight nextWorker) :
    callWeight next < callWeight call := by
  cases moves with
  | cut remaining at_phase more =>
      simp only [callWeight, at_phase, phaseWeight, stageWeight, feedWeight, requestWeight]
      omega
  | take remaining channel chunk queue at_phase waiting =>
      simp only [callWeight, at_phase, phaseWeight, stageWeight, waiting, List.length_cons]
      omega
  | drained remaining channel at_phase empty dropped =>
      simp only [callWeight, at_phase, phaseWeight, stageWeight, empty, List.length_nil]
      omega
  | forward remaining channel chunk at_phase connected room =>
      simp only [callWeight, at_phase, phaseWeight, stageWeight, List.length_append,
        List.length_singleton]
      omega
  | fail remaining error at_phase connected room =>
      simp only [callWeight, at_phase, phaseWeight, stageWeight, List.length_append,
        List.length_singleton]
      omega
  | giveUp remaining stage at_phase sending gone =>
      rcases sending with ⟨channel, chunk, rfl⟩ | ⟨error, rfl⟩ <;>
      · simp only [callWeight, at_phase, phaseWeight, stageWeight]
        omega
  | refuse at_phase | check at_phase | zero at_phase | tooMany at_phase | count at_phase
  | spawn at_phase | burst at_phase | complete at_phase | cancelled _ _ at_phase
  | proceed _ _ at_phase | pick _ _ at_phase | down _ _ _ at_phase | leave at_phase =>
      simp only [callWeight, at_phase, phaseWeight, stageWeight, feedWeight, requestWeight]
      omega

/-- A worker polls its generator and gets no ID. -/
def Worker.Stalls (worker : Worker) (now : ServerLayout.Ty) : Prop :=
  match worker.phase with
  | .handling job => job.point = .generating ∧ job.generated < job.request.chunkSize ∧
      (worker.generator.pollId now).2.IsPending
  | _ => False

instance (worker : Worker) (now : ServerLayout.Ty) : Decidable (worker.Stalls now) :=
  match at_phase : worker.phase with
  | .handling job =>
      decidable_of_iff (job.point = .generating ∧ job.generated < job.request.chunkSize ∧
        (worker.generator.pollId now).2.IsPending) (by simp [Worker.Stalls, at_phase])
  | .starting | .waiting | .stopping | .stopped | .panicked =>
      isFalse (by simp [Worker.Stalls, at_phase])

/-- The steps of a worker that touch no channel, when a poll succeeds. -/
theorem WorkMoves.lighter {now : ServerLayout.Ty} {worker next : Worker}
    (moves : WorkMoves config state now worker next) (active : ¬ worker.Stalls now) :
    workerWeight next < workerWeight worker := by
  cases moves with
  | start at_phase fits =>
      simp only [workerWeight, at_phase, workerPhaseWeight]
      omega
  | takeShutdown inbox at_phase waiting =>
      simp only [workerWeight, at_phase, workerPhaseWeight, waiting, List.map_cons,
        List.sum_cons, workWeight]
      omega
  | pause job at_phase generating more pending =>
      simp only [Worker.Stalls, at_phase] at active
      exact absurd ⟨generating, more, pending⟩ active
  | write job id at_phase generating more ready fits =>
      simp only [workerWeight, at_phase, workerPhaseWeight, jobWeight, generating]
      split <;> omega
  | rest job at_phase generating all some alive =>
      simp only [workerWeight, at_phase, workerPhaseWeight, jobWeight, generating]
      omega
  | full job at_phase checking alive =>
      simp only [workerWeight, at_phase, workerPhaseWeight, jobWeight, checking]
      omega

theorem jobWeight_pos (job : Job) : 0 < jobWeight job := by
  unfold jobWeight
  dsimp only
  split <;> omega

/-- Messages that a change adds to a channel weigh three each. -/
theorem callWeight_mapChannel (call : Call) (number : Nat) {change : ChunkChannel → ChunkChannel}
    {added : Nat}
    (grows : ∀ channel, (change channel).queue.length ≤ channel.queue.length + added) :
    callWeight (call.mapChannel number change) ≤ callWeight call + 3 * added := by
  rcases call.mapChannel_cases number change with
    ⟨_, same⟩ | ⟨remaining, channel, _, at_phase, mapped⟩ |
      ⟨remaining, channel, chunk, _, at_phase, mapped⟩
  · rw [same]
    omega
  · have bound := grows channel
    rw [mapped]
    simp only [callWeight, at_phase, phaseWeight, stageWeight]
    omega
  · have bound := grows channel
    rw [mapped]
    simp only [callWeight, at_phase, phaseWeight, stageWeight]
    omega

end Parts

/-! ## The whole -/

section Whole

variable {config : ServerConfig} {state next : State}

/-- A call gets lighter. -/
theorem weight_lt_of_call {index : Nat} {call : Call} (known : index < state.arrivals)
    (calls : next.calls = Function.update state.calls index call)
    (arrivals : next.arrivals = state.arrivals) (workers : next.workers = state.workers)
    (manager : next.manager = state.manager)
    (lighter : callWeight call < callWeight (state.calls index)) :
    weight config next < weight config state := by
  have changed : total callWeight state.arrivals (Function.update state.calls index call) +
      callWeight (state.calls index) = total callWeight state.arrivals state.calls +
        callWeight call := total_update_of_lt known
  simp only [weight, calls, arrivals, workers, manager]
  omega

/-- A worker gets lighter, and by more than what it adds to a call. -/
theorem weight_lt_of_worker (added : Nat) {index : Nat} {worker : Worker}
    (known : index < config.numWorkers)
    (calls : total callWeight state.arrivals next.calls ≤
      total callWeight state.arrivals state.calls + 3 * added)
    (arrivals : next.arrivals = state.arrivals)
    (workers : next.workers = Function.update state.workers index worker)
    (manager : next.manager = state.manager)
    (lighter : workerWeight worker + 3 * added < workerWeight (state.workers index)) :
    weight config next < weight config state := by
  have changed : total workerWeight config.numWorkers
      (Function.update state.workers index worker) + workerWeight (state.workers index) =
        total workerWeight config.numWorkers state.workers + workerWeight worker :=
    total_update_of_lt known
  simp only [weight, arrivals, workers, manager]
  omega

theorem total_mapChannel_le (request : StreamRequest) (change : ChunkChannel → ChunkChannel)
    (added : Nat)
    (grows : ∀ channel, (change channel).queue.length ≤ channel.queue.length + added) :
    total callWeight state.arrivals (state.mapChannel request change).calls ≤
      total callWeight state.arrivals state.calls + 3 * added :=
  total_update_le (callWeight_mapChannel _ _ grows)

theorem total_dropInbox_le (state : State) (inbox : List WorkRequest) :
    total callWeight state.arrivals (state.dropInbox inbox).calls ≤
      total callWeight state.arrivals state.calls := by
  induction inbox generalizing state with
  | nil => exact Nat.le_refl _
  | cons work rest inductionHypothesis =>
      cases work with
      | stream request =>
          exact Nat.le_trans (inductionHypothesis (state.mapChannel request .drop))
            (total_mapChannel_le request .drop 0 fun _ => Nat.le_refl _)
      | shutdown => exact inductionHypothesis state

/-- A worker goes away. -/
theorem weight_lt_of_leave {index : Nat} {worker : Worker} (known : index < config.numWorkers)
    (lighter : workerWeight worker < workerWeight (state.workers index)) :
    weight config ((state.dropInbox (state.workers index).inbox).setWorker index worker) <
      weight config state := by
  have calls := total_dropInbox_le state (state.workers index).inbox
  rw [dropInbox_eq]
  exact weight_lt_of_worker 0 known calls rfl rfl rfl lighter

theorem sum_inbox_append (inbox : List WorkRequest) (work : WorkRequest) :
    ((inbox ++ [work]).map workWeight).sum = (inbox.map workWeight).sum + workWeight work := by
  rw [List.map_append, List.sum_append, List.map_singleton, List.sum_singleton]

/-- A call hands work to a worker and gets lighter by more than that. -/
theorem weight_lt_of_send {index owner increase : Nat} {call : Call} {worker : Worker}
    (known : index < state.arrivals)
    (calls : next.calls = Function.update state.calls index call)
    (workers : next.workers = Function.update state.workers owner worker)
    (arrivals : next.arrivals = state.arrivals) (manager : next.manager = state.manager)
    (lighter : callWeight call + increase < callWeight (state.calls index))
    (heavier : workerWeight worker ≤ workerWeight (state.workers owner) + increase) :
    weight config next < weight config state := by
  have called : total callWeight state.arrivals (Function.update state.calls index call) +
      callWeight (state.calls index) = total callWeight state.arrivals state.calls +
        callWeight call := total_update_of_lt known
  have worked : total workerWeight config.numWorkers
      (Function.update state.workers owner worker) ≤
        total workerWeight config.numWorkers state.workers + increase := total_update_le heavier
  simp only [weight, calls, workers, arrivals, manager]
  omega

/-- The manager tells a worker to leave. -/
theorem weight_lt_of_notify {owner : Nat} {worker : Worker}
    (calls : next.calls = state.calls)
    (workers : next.workers = Function.update state.workers owner worker)
    (arrivals : next.arrivals = state.arrivals)
    (lighter : managerWeight config.numWorkers next.manager + 1 <
      managerWeight config.numWorkers state.manager)
    (heavier : workerWeight worker ≤ workerWeight (state.workers owner) + 1) :
    weight config next < weight config state := by
  have worked : total workerWeight config.numWorkers
      (Function.update state.workers owner worker) ≤
        total workerWeight config.numWorkers state.workers + 1 := total_update_le heavier
  simp only [weight, calls, workers, arrivals]
  omega

/-- Every step but an arrival, an unsuccessful poll and the end of the process leaves less
to do. -/
theorem weight_lt_of_present (positive : 0 < config.idsPerChunk)
    (present : ∀ index, state.calls index ≠ Call.absent → index < state.arrivals)
    {label : Label} (stepped : step config state label = some next)
    (settled : ∀ count, label ≠ .arrive count) (runs : ∀ index, label ≠ .abort index)
    (active : ∀ index now, label = .work index now → ¬ (state.workers index).Stalls now) :
    weight config next < weight config state := by
  cases moves_of_step stepped with
  | arrive count bound => exact absurd rfl (settled count)
  | abort index => exact absurd rfl (runs index)
  | call index after inflight nextWorker moves =>
      exact weight_lt_of_call (present _ moves.ne_absent) rfl rfl rfl rfl
        (moves.lighter positive)
  | reserve index remaining worker chunkSize at_phase up room =>
      refine weight_lt_of_send (present _ fun absent => ?_) rfl rfl rfl rfl (?_ : _ + 0 < _) ?_
      · rw [absent] at at_phase
        cases at_phase
      · simp only [callWeight, at_phase, phaseWeight, stageWeight]
        omega
      · exact Nat.le_refl _
  | send index remaining worker chunkSize at_phase =>
      refine weight_lt_of_send (present _ fun absent => ?_) rfl rfl rfl rfl
        (?_ : _ + requestWeight chunkSize < _) ?_
      · rw [absent] at at_phase
        cases at_phase
      · simp only [callWeight, at_phase, phaseWeight, stageWeight, List.length_nil]
        omega
      · simp only [workerWeight, sum_inbox_append, workWeight]
        omega
  | receive index item resp stream connected waiting =>
      refine weight_lt_of_call (present _ (ne_absent_of_hasStream stream)) rfl rfl rfl rfl ?_
      simp only [callWeight, waiting, List.length_cons]
      omega
  | disconnect index stream connected =>
      refine weight_lt_of_call (present _ (ne_absent_of_hasStream stream)) rfl rfl rfl rfl ?_
      simp only [callWeight, connected, List.length_nil, Bool.toNat_true, Bool.toNat_false]
      omega
  | work index now after known moves =>
      exact weight_lt_of_worker 0 known (Nat.le_refl _) rfl rfl rfl
        (moves.lighter (active index now rfl))
  | allocationPanic index now known at_phase large =>
      apply weight_lt_of_leave known
      simp only [workerWeight, at_phase, workerPhaseWeight, List.map_nil, List.sum_nil]
      omega
  | takeStream index now request inbox known at_phase waiting =>
      refine weight_lt_of_worker 0 known
        (total_mapChannel_le request .hold 0 fun _ => Nat.le_refl _) rfl rfl rfl ?_
      simp only [workerWeight, at_phase, workerPhaseWeight, waiting, List.map_cons, List.sum_cons,
        workWeight, requestWeight, jobWeight]
      omega
  | indexPanic index now job id known at_phase generating more ready beyond =>
      have dropped := total_dropInbox_le (state.mapChannel job.request .drop)
        (state.workers index).inbox
      have calls := Nat.le_trans dropped
        (total_mapChannel_le job.request .drop 0 fun _ => Nat.le_refl _)
      rw [dropInbox_eq]
      refine weight_lt_of_worker 0 known calls rfl rfl rfl ?_
      simp only [workerWeight, at_phase, workerPhaseWeight, List.map_nil, List.sum_nil]
      omega
  | finish index now job known at_phase finishes =>
      have heavy := jobWeight_pos job
      refine weight_lt_of_worker 0 known
        (total_mapChannel_le job.request .drop 0 fun _ => Nat.le_refl _) rfl rfl rfl ?_
      simp only [workerWeight, at_phase, workerPhaseWeight]
      omega
  | pushFull index now job bytes known at_phase sending alive room =>
      refine weight_lt_of_worker 1 known
        (total_mapChannel_le job.request (.push bytes) 1 ?_) rfl rfl rfl ?_
      · simp [ChunkChannel.push]
      simp only [workerWeight, at_phase, workerPhaseWeight, jobWeight, sending]
      omega
  | pushRest index now job bytes known at_phase sending alive room =>
      rw [finishJob, State.mapChannel_mapChannel _ _ (.push bytes) .drop fun _ => rfl]
      refine weight_lt_of_worker 1 known
        (total_mapChannel_le job.request (fun channel => (channel.push bytes).drop) 1 ?_)
        rfl rfl rfl ?_
      · simp [ChunkChannel.push, ChunkChannel.drop]
      simp only [workerWeight, at_phase, workerPhaseWeight, jobWeight, sending]
      omega
  | stop index now known at_phase =>
      apply weight_lt_of_leave known
      simp only [workerWeight, at_phase, workerPhaseWeight, List.map_nil, List.sum_nil]
      omega
  | beginShutdown timeout at_phase | drain timeout at_phase | cancel timeout at_phase
  | skip timeout index at_phase | finishShutdown timeout index at_phase =>
      simp only [weight, at_phase, managerWeight]
      omega
  | notify timeout index at_phase known up room =>
      refine weight_lt_of_notify rfl rfl rfl ?_ ?_
      · simp only [at_phase, managerWeight]
        omega
      · simp only [workerWeight, sum_inbox_append, workWeight]
        omega

end Whole

end Ferroid.Server
