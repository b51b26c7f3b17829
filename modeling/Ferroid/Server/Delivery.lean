import Ferroid.Library.Total
import Ferroid.Server.Production
import Ferroid.Server.Response

/-!
Contract: the way of an ID from the worker that made it to one client.

Owns the IDs on their way to a client (`Call.pipeline`), the list of everything one
step can do to them, and what follows over every run, whatever clients, workers and a
shutdown do: no ID reaches two clients or one client twice, every ID a client has was
sent by one worker, and a client sees the IDs of each worker in the order in which
that worker made them.

Does not own how many IDs reach a client (`Server.Streaming`).
-/

namespace Ferroid.Server

open Ferroid.Id
open Ferroid.Generator
open Ferroid.Library

/-! ## Pipelines -/

/-- The chunks a feed task has not passed on, oldest first. -/
def Stage.chunks : Stage → List IdChunk
  | .receiving channel => channel.queue
  | .forwarding channel chunk => chunk :: channel.queue
  | _ => []

def CallPhase.chunks : CallPhase → List IdChunk
  | .feeding _ stage => stage.chunks
  | _ => []

/-- The IDs on the way from the workers to a client: received, in the response
channel, and with the feed task. -/
def Call.pipeline (call : Call) : List ServerId :=
  call.receivedIds ++ call.resp.flatMap Item.ids ++ call.phase.chunks.flatMap unpack

theorem Call.receivedIds_sublist (call : Call) : call.receivedIds.Sublist call.pipeline := by
  rw [pipeline, List.append_assoc]
  exact List.sublist_append_left _ _

section Pipeline

variable {call : Call}

theorem ChunkChannel.queue_hold (channel : ChunkChannel) : channel.hold.queue = channel.queue :=
  rfl

theorem ChunkChannel.queue_drop (channel : ChunkChannel) : channel.drop.queue = channel.queue :=
  rfl

/-- A change of a channel that keeps its queue keeps the pipeline. -/
theorem Call.pipeline_mapChannel (call : Call) (number : Nat)
    {change : ChunkChannel → ChunkChannel}
    (queue : ∀ channel, (change channel).queue = channel.queue) :
    (call.mapChannel number change).pipeline = call.pipeline := by
  rcases call.mapChannel_cases number change with
    ⟨_, same⟩ | ⟨remaining, channel, _, at_phase, mapped⟩ |
      ⟨remaining, channel, chunk, _, at_phase, mapped⟩
  · rw [same]
  · rw [mapped]
    simp only [pipeline, receivedIds, at_phase, CallPhase.chunks, Stage.chunks, queue]
  · rw [mapped]
    simp only [pipeline, receivedIds, at_phase, CallPhase.chunks, Stage.chunks, queue]

/-- A chunk enters the pipeline at its end. -/
theorem Call.pipeline_push (call : Call) (number : Nat) (chunk : IdChunk) :
    (call.mapChannel number (.push chunk)).pipeline.Sublist (call.pipeline ++ unpack chunk) := by
  rcases call.mapChannel_cases number (.push chunk) with
    ⟨_, same⟩ | ⟨remaining, channel, _, at_phase, mapped⟩ |
      ⟨remaining, channel, last, _, at_phase, mapped⟩
  · rw [same]
    exact List.sublist_append_left _ _
  · rw [mapped]
    simp only [pipeline, receivedIds, at_phase, CallPhase.chunks, Stage.chunks,
      ChunkChannel.push, List.flatMap_append, List.flatMap_singleton, List.append_assoc]
    exact List.Sublist.refl _
  · rw [mapped]
    simp only [pipeline, receivedIds, at_phase, CallPhase.chunks, Stage.chunks,
      ChunkChannel.push, List.flatMap_cons, List.flatMap_append, List.flatMap_nil,
      List.append_nil, List.append_assoc]
    exact List.Sublist.refl _

/-- A feed task that moves on without forwarding loses what it holds or nothing. -/
theorem Call.pipeline_rephase {phase : CallPhase}
    (chunks : phase.chunks.Sublist call.phase.chunks) :
    ({ call with phase := phase } : Call).pipeline.Sublist call.pipeline :=
  (List.Sublist.refl _).append (chunks.flatMap unpack)

variable {config : ServerConfig} {state next : State}

theorem CallMoves.pipeline {after : Call} {inflight : BitVec 64} {nextWorker : Nat}
    (moves : CallMoves config state call after inflight nextWorker) :
    after.pipeline.Sublist call.pipeline := by
  cases moves with
  | refuse | check | zero | tooMany | count | spawn | burst | complete | cancelled | proceed
  | pick | down | drained | giveUp | leave => exact Call.pipeline_rephase (List.nil_sublist _)
  | cut remaining at_phase =>
      exact (List.Sublist.refl _).append (List.nil_sublist _)
  | take remaining channel chunk queue at_phase waiting =>
      apply Call.pipeline_rephase
      rw [at_phase]
      show (chunk :: queue).Sublist channel.queue
      rw [waiting]
  | forward remaining channel chunk at_phase connected room =>
      simp only [Call.pipeline, Call.receivedIds, at_phase, CallPhase.chunks, Stage.chunks,
        List.flatMap_append, List.flatMap_cons, List.flatMap_nil, Item.ids, List.append_nil,
        List.append_assoc]
      exact List.Sublist.refl _
  | fail remaining error at_phase connected room =>
      simp only [Call.pipeline, Call.receivedIds, at_phase, CallPhase.chunks, Stage.chunks,
        List.flatMap_append, List.flatMap_cons, List.flatMap_nil, Item.ids, List.append_nil]
      exact List.Sublist.refl _

end Pipeline

/-! ## What a step does to the pipelines -/

/-- A step passes IDs on or drops them; only a worker that sends a chunk adds some, to
one pipeline and to its own log. -/
inductive Flows (config : ServerConfig) (state next : State) : Prop where
  | passes
      (pipelines : ∀ index, (next.calls index).pipeline.Sublist (state.calls index).pipeline)
      (logs : ∀ worker, (next.workers worker).sent = (state.workers worker).sent)
  | sends (worker index : Nat) (chunk : IdChunk) (known : worker < config.numWorkers)
      (here : (next.calls index).pipeline.Sublist
        ((state.calls index).pipeline ++ unpack chunk))
      (elsewhere : ∀ other, other ≠ index →
        (next.calls other).pipeline.Sublist (state.calls other).pipeline)
      (logged : (next.workers worker).sent = (state.workers worker).sent ++ [chunk])
      (unlogged : ∀ other, other ≠ worker →
        (next.workers other).sent = (state.workers other).sent)

section Flow

variable {config : ServerConfig} {state next : State}

/-- One worker changes and keeps its log. -/
theorem sent_update {index : Nat} {worker : Worker} {workers : Nat → Worker}
    (sent : worker.sent = (workers index).sent) (other : Nat) :
    (Function.update workers index worker other).sent = (workers other).sent := by
  by_cases same : other = index
  · rw [same, Function.update_self, sent]
  · rw [Function.update_of_ne same]

/-- One call changes, and no log does. -/
theorem Flows.call {index : Nat} {call : Call}
    (calls : next.calls = Function.update state.calls index call)
    (pipeline : call.pipeline.Sublist (state.calls index).pipeline)
    (logs : ∀ worker, (next.workers worker).sent = (state.workers worker).sent) :
    Flows config state next := by
  apply Flows.passes _ logs
  rw [calls, Function.forall_update_iff state.calls
    fun other call => call.pipeline.Sublist (state.calls other).pipeline]
  exact ⟨pipeline, fun other _ => List.Sublist.refl _⟩

/-- One worker changes, and no pipeline or log does. -/
theorem Flows.work {index : Nat} {worker : Worker}
    (workers : next.workers = Function.update state.workers index worker)
    (sent : worker.sent = (state.workers index).sent)
    (pipelines : ∀ other, (next.calls other).pipeline = (state.calls other).pipeline) :
    Flows config state next := by
  apply Flows.passes
  · intro other
    rw [pipelines]
  · rw [workers]
    exact sent_update sent

theorem pipeline_state_mapChannel (state : State) (request : StreamRequest)
    {change : ChunkChannel → ChunkChannel}
    (queue : ∀ channel, (change channel).queue = channel.queue) (index : Nat) :
    ((state.mapChannel request change).calls index).pipeline = (state.calls index).pipeline := by
  by_cases same : index = request.call
  · rw [same]
    simp only [State.mapChannel, State.setCall, Function.update_self]
    exact Call.pipeline_mapChannel _ _ queue
  · simp only [State.mapChannel, State.setCall, Function.update_of_ne same]

theorem pipeline_dropInbox (state : State) (inbox : List WorkRequest) (index : Nat) :
    ((state.dropInbox inbox).calls index).pipeline = (state.calls index).pipeline := by
  induction inbox generalizing state with
  | nil => rfl
  | cons work rest inductionHypothesis =>
      cases work with
      | stream request =>
          exact (inductionHypothesis (state.mapChannel request .drop)).trans
            (pipeline_state_mapChannel state request ChunkChannel.queue_drop index)
      | shutdown => exact inductionHypothesis state

/-- A worker sends a chunk. -/
theorem Flows.push {worker : Nat} {job : Job} {bytes : IdChunk}
    (known : worker < config.numWorkers)
    (calls : ∀ index, (next.calls index).pipeline =
      ((state.mapChannel job.request (.push bytes)).calls index).pipeline)
    {after : Worker} (workers : next.workers = Function.update state.workers worker after)
    (sent : after.sent = (state.workers worker).sent ++ [bytes]) : Flows config state next := by
  apply Flows.sends worker job.request.call bytes known
  · rw [calls]
    simp only [State.mapChannel, State.setCall, Function.update_self]
    exact Call.pipeline_push _ _ _
  · intro other different
    rw [calls]
    simp only [State.mapChannel, State.setCall, Function.update_of_ne different]
    exact List.Sublist.refl _
  · rw [workers, Function.update_self, sent]
  · intro other different
    rw [workers, Function.update_of_ne different]

theorem WorkMoves.sent {now : ServerLayout.Ty} {worker after : Worker}
    (moves : WorkMoves config state now worker after) : after.sent = worker.sent := by
  cases moves with
  | _ => rfl

theorem flows_of_step {label : Label} (stepped : Server.step config state label = some next) :
    Flows config state next := by
  cases moves_of_step stepped with
  | arrive count bound => exact Flows.call rfl (List.nil_sublist _) fun _ => rfl
  | call index after inflight nextWorker moves =>
      exact Flows.call rfl moves.pipeline fun _ => rfl
  | reserve index remaining worker | send index remaining worker =>
      exact Flows.call rfl (Call.pipeline_rephase (List.nil_sublist _)) (sent_update rfl)
  | receive index item resp stream connected waiting =>
      refine Flows.call rfl ?_ fun _ => rfl
      simp only [Call.pipeline, Call.receivedIds, waiting, List.flatMap_append,
        List.flatMap_cons, List.flatMap_nil, List.append_nil, List.append_assoc]
      exact List.Sublist.refl _
  | disconnect index stream connected =>
      refine Flows.call rfl ?_ fun _ => rfl
      exact ((List.Sublist.refl _).append (List.nil_sublist _)).append (List.Sublist.refl _)
  | work index now after known moves => exact Flows.work rfl moves.sent fun _ => rfl
  | allocationPanic index now known at_phase large =>
      rw [dropInbox_eq]
      exact Flows.work rfl rfl (pipeline_dropInbox state _)
  | takeStream index now request inbox known at_phase waiting =>
      exact Flows.work rfl rfl (pipeline_state_mapChannel state request ChunkChannel.queue_hold)
  | indexPanic index now job id known at_phase generating more ready beyond =>
      rw [dropInbox_eq]
      refine Flows.work rfl rfl fun other => ?_
      exact (pipeline_dropInbox _ _ other).trans
        (pipeline_state_mapChannel state job.request ChunkChannel.queue_drop other)
  | finish index now job known at_phase finishes =>
      exact Flows.work rfl rfl
        (pipeline_state_mapChannel state job.request ChunkChannel.queue_drop)
  | pushFull index now job bytes known at_phase sending alive room =>
      exact Flows.push known (fun _ => rfl) rfl rfl
  | pushRest index now job bytes known at_phase sending alive room =>
      exact Flows.push known
        (pipeline_state_mapChannel _ job.request ChunkChannel.queue_drop) rfl rfl
  | stop index now known at_phase =>
      rw [dropInbox_eq]
      exact Flows.work rfl rfl (pipeline_dropInbox state _)
  | notify timeout index at_phase known up room => exact Flows.work rfl rfl fun _ => rfl
  | abort | beginShutdown | drain | cancel | skip | finishShutdown =>
      exact Flows.passes (fun _ => List.Sublist.refl _) fun _ => rfl

end Flow

/-! ## Conservation and order -/

/-- No ID is in the pipelines more often than workers have sent it. -/
def Conserved (config : ServerConfig) (state : State) : Prop :=
  ∀ id size, total (fun call => call.pipeline.count id) size state.calls ≤
    total (fun worker => worker.emitted.count id) config.numWorkers state.workers

/-- The IDs that carry a machine field. -/
def ofMachine (machine : ServerLayout.Ty) (ids : List ServerId) : List ServerId :=
  ids.filter fun id => id.machineId = machine

/-- A pipeline holds IDs of every worker in the order in which it sent them. -/
def InOrder (config : ServerConfig) (state : State) : Prop :=
  ∀ index worker, worker < config.numWorkers →
    (ofMachine (config.workerMachine worker) (state.calls index).pipeline).Sublist
      (state.workers worker).emitted

section Conservation

variable {config : ServerConfig} {state next : State}

theorem Flows.conserved (flows : Flows config state next) (conserved : Conserved config state) :
    Conserved config next := by
  intro id size
  have before := conserved id size
  cases flows with
  | passes pipelines logs =>
      have fewer : total (fun call => call.pipeline.count id) size next.calls ≤
          total (fun call => call.pipeline.count id) size state.calls :=
        total_le_total fun index => (pipelines index).count_le id
      have same : total (fun worker => worker.emitted.count id) config.numWorkers next.workers =
          total (fun worker => worker.emitted.count id) config.numWorkers state.workers := by
        apply total_congr
        intro worker
        rw [Worker.emitted, Worker.emitted, logs]
      omega
  | sends worker index chunk known here elsewhere logged unlogged =>
      have grown : total (fun call => call.pipeline.count id) size next.calls ≤
          total (fun call => call.pipeline.count id) size state.calls +
            (unpack chunk).count id := by
        refine total_le_add ?_ fun other different => (elsewhere other different).count_le id
        rw [← List.count_append]
        exact here.count_le id
      have sent : total (fun worker => worker.emitted.count id) config.numWorkers next.workers =
          total (fun worker => worker.emitted.count id) config.numWorkers state.workers +
            (unpack chunk).count id := by
        refine total_eq_add known ?_ fun other different => ?_
        · rw [Worker.emitted, logged, List.flatMap_append, List.flatMap_singleton,
            List.count_append, Worker.emitted]
        · rw [Worker.emitted, unlogged other different, Worker.emitted]
      omega

theorem ServerConfig.Checked.workerMachine_injective (checked : config.Checked) {left right : Nat}
    (leftKnown : left < config.numWorkers) (rightKnown : right < config.numWorkers)
    (same : config.workerMachine left = config.workerMachine right) : left = right := by
  apply checked.machineField_injective leftKnown rightKnown
  rw [← config.toNat_workerMachine, ← config.toNat_workerMachine, same]

theorem ofMachine_append (machine : ServerLayout.Ty) (left right : List ServerId) :
    ofMachine machine (left ++ right) = ofMachine machine left ++ ofMachine machine right :=
  List.filter_append left right

theorem ofMachine_sublist {machine : ServerLayout.Ty} {left right : List ServerId}
    (sublist : left.Sublist right) : (ofMachine machine left).Sublist (ofMachine machine right) :=
  sublist.filter _

theorem Flows.inOrder (checked : config.Checked) (flows : Flows config state next)
    (producing : Producing config next) (inOrder : InOrder config state) :
    InOrder config next := by
  intro index worker known
  have before := inOrder index worker known
  cases flows with
  | passes pipelines logs =>
      rw [Worker.emitted, logs]
      exact (ofMachine_sublist (pipelines index)).trans before
  | sends sender target chunk senderKnown here elsewhere logged unlogged =>
      have grows : (state.workers worker).emitted.Sublist (next.workers worker).emitted := by
        by_cases isSender : worker = sender
        · rw [isSender, Worker.emitted, Worker.emitted, logged, List.flatMap_append]
          exact List.sublist_append_left _ _
        · rw [Worker.emitted, Worker.emitted, unlogged worker isSender]
      by_cases isTarget : index = target
      · subst isTarget
        apply (ofMachine_sublist here).trans
        rw [ofMachine_append]
        by_cases isSender : worker = sender
        · subst isSender
          rw [Worker.emitted, logged, List.flatMap_append, List.flatMap_singleton]
          exact before.append List.filter_sublist
        · have foreign : ofMachine (config.workerMachine worker) (unpack chunk) = [] := by
            apply List.filter_eq_nil_iff.mpr
            intro id member
            have sent : id ∈ (next.workers sender).emitted := by
              rw [Worker.emitted, logged, List.flatMap_append, List.flatMap_singleton]
              exact List.mem_append_right _ member
            rw [decide_eq_true_eq, (producing sender).machineId id sent]
            intro same
            exact isSender (checked.workerMachine_injective senderKnown known same).symm
          rw [foreign, List.append_nil]
          exact before.trans grows
      · exact ((ofMachine_sublist (elsewhere index isTarget)).trans before).trans grows

/-! ## Whole runs -/

/-- What holds of the pipelines in every run. -/
structure Delivering (config : ServerConfig) (state : State) : Prop where
  producing : Producing config state
  conserved : Conserved config state
  inOrder : InOrder config state

theorem delivering_initial (config : ServerConfig) : Delivering config (initial config) where
  producing := producing_initial config
  conserved id size := by
    have empty : total (fun call : Call => call.pipeline.count id) size (initial config).calls = 0 :=
      total_eq_zero fun _ => rfl
    rw [empty]
    exact Nat.zero_le _
  inOrder _ _ _ := List.nil_sublist _

theorem Delivering.step (checked : config.Checked) {label : Label}
    (delivering : Delivering config state) (readable : Readable label)
    (stepped : Server.step config state label = some next) : Delivering config next := by
  have flows := flows_of_step stepped
  have producing := delivering.producing.step readable stepped
  exact ⟨producing, flows.conserved delivering.conserved,
    flows.inOrder checked producing delivering.inOrder⟩

theorem Delivering.run (checked : config.Checked) {labels : List Label}
    (readable : ∀ label ∈ labels, Readable label)
    (ran : Transition.run (Server.step config) (initial config) labels = some state) :
    Delivering config state :=
  Transition.run_invariant_labels (Delivering config) Readable
    (fun _ _ _ delivering fits stepped => delivering.step checked fits stepped)
    (delivering_initial config) readable ran

/-- All workers together have sent an ID at most once. -/
theorem Producing.total_count_le (producing : Producing config state) (checked : config.Checked)
    (id : ServerId) :
    total (fun worker => worker.emitted.count id) config.numWorkers state.workers ≤ 1 := by
  have nodup := List.nodup_iff_count_le_one.mp (producing.nodup checked) id
  rw [State.emitted, List.count_flatMap] at nodup
  rw [total_eq_sum]
  exact nodup

/-- An ID is in one pipeline only, and once. -/
theorem Delivering.count_le_one (delivering : Delivering config state) (checked : config.Checked)
    (index : Nat) (id : ServerId) : (state.calls index).pipeline.count id ≤ 1 := by
  calc (state.calls index).pipeline.count id
      ≤ total (fun call => call.pipeline.count id) (index + 1) state.calls :=
        le_total (fun call : Call => call.pipeline.count id) state.calls (Nat.lt_succ_self index)
    _ ≤ total (fun worker => worker.emitted.count id) config.numWorkers state.workers :=
        delivering.conserved id (index + 1)
    _ ≤ 1 := delivering.producing.total_count_le checked id

theorem Delivering.disjoint (delivering : Delivering config state) (checked : config.Checked)
    {left right : Nat} (different : left ≠ right) :
    (state.calls left).pipeline.Disjoint (state.calls right).pipeline := by
  intro id inLeft inRight
  have both : (state.calls left).pipeline.count id + (state.calls right).pipeline.count id ≤
      total (fun call => call.pipeline.count id) (left + right + 1) state.calls :=
    add_le_total (fun call : Call => call.pipeline.count id) state.calls (by omega) (by omega)
      different
  have sent := delivering.conserved id (left + right + 1)
  have once := delivering.producing.total_count_le checked id
  have leftCount := List.count_pos_iff.mpr inLeft
  have rightCount := List.count_pos_iff.mpr inRight
  omega

/-- An ID in a pipeline was sent by a worker. -/
theorem Delivering.sent (delivering : Delivering config state) {index : Nat} {id : ServerId}
    (member : id ∈ (state.calls index).pipeline) : id ∈ state.emitted config := by
  have counted := List.count_pos_iff.mpr member
  have inside := le_total (fun call : Call => call.pipeline.count id) state.calls
    (Nat.lt_succ_self index)
  have sent := delivering.conserved id (index + 1)
  rw [← List.count_pos_iff, State.emitted, List.count_flatMap]
  rw [total_eq_sum (fun worker : Worker => worker.emitted.count id)] at sent
  exact Nat.lt_of_lt_of_le counted (Nat.le_trans inside sent)

end Conservation

/-! ## Clients -/

/-- Whatever the clients, the workers and a shutdown do, an ID reaches at most one
client and reaches it once; it was sent by exactly one worker; and a client gets the
IDs of each worker in the order in which that worker made them. -/
theorem delivered_once_and_in_order (config : ServerConfig) (accepted : config.Accepted)
    (labels : List Label) (state : State) (readable : ∀ label ∈ labels, Readable label)
    (ran : Transition.run (step config) (initial config) labels = some state) :
    (∀ index, (state.calls index).receivedIds.Nodup) ∧
      (∀ left right, left ≠ right →
        (state.calls left).receivedIds.Disjoint (state.calls right).receivedIds) ∧
      (∀ index, ∀ id ∈ (state.calls index).receivedIds,
        ∃! worker, worker < config.numWorkers ∧ id ∈ (state.workers worker).emitted) ∧
      ∀ index worker, worker < config.numWorkers →
        (ofMachine (config.workerMachine worker) (state.calls index).receivedIds).Sublist
          (state.workers worker).emitted ∧
        (ofMachine (config.workerMachine worker) (state.calls index).receivedIds).Pairwise
          (· < ·) := by
  have checked := accepted.checked
  have delivering := Delivering.run checked readable ran
  refine ⟨fun index => ?_, fun left right different => ?_, fun index id received => ?_,
    fun index worker known => ?_⟩
  · exact (List.nodup_iff_count_le_one.mpr (delivering.count_le_one checked index)).sublist
      (state.calls index).receivedIds_sublist
  · intro id inLeft inRight
    exact delivering.disjoint checked different ((Call.receivedIds_sublist _).subset inLeft)
      ((Call.receivedIds_sublist _).subset inRight)
  · have sent := delivering.sent ((Call.receivedIds_sublist _).subset received)
    obtain ⟨worker, known, emitted⟩ := List.mem_flatMap.mp sent
    refine ⟨worker, ⟨List.mem_range.mp known, emitted⟩, fun other ⟨otherKnown, again⟩ => ?_⟩
    apply checked.workerMachine_injective otherKnown (List.mem_range.mp known)
    rw [← (delivering.producing other).machineId id again,
      ← (delivering.producing worker).machineId id emitted]
  · have ordered := (ofMachine_sublist (state.calls index).receivedIds_sublist).trans
      (delivering.inOrder index worker known)
    exact ⟨ordered, (delivering.producing worker).increasing.sublist ordered⟩

/-- One client gets an ID from each of two workers, another one a further ID of the
first worker. -/
def threeIdsRun : List Label :=
  List.flatten [[.arrive 2], List.replicate 8 (.call 0), List.replicate 6 (.work 0 5#_),
    List.replicate 8 (.call 0), List.replicate 6 (.work 1 5#_), List.replicate 4 (.call 0),
    List.replicate 2 (.receive 0), [.arrive 1], List.replicate 8 (.call 1),
    List.replicate 5 (.work 0 6#_), List.replicate 2 (.call 1), [.receive 1]]

theorem delivered_once_and_in_order_three_ids :
    ∃ state, Transition.run (step nodeOfTwo) (initial nodeOfTwo) threeIdsRun = some state ∧
      (state.calls 0).receivedIds.length = 2 ∧ (state.calls 1).receivedIds.length = 1 ∧
      (state.calls 0).receivedIds.Nodup ∧
      (state.calls 0).receivedIds.Disjoint (state.calls 1).receivedIds := by
  have observed : (Transition.run (step nodeOfTwo) (initial nodeOfTwo) threeIdsRun).map
      (fun state => ((state.calls 0).receivedIds.length, (state.calls 1).receivedIds.length)) =
        some (2, 1) := by
    decide +kernel
  have readable : ∀ label ∈ threeIdsRun, Readable label := by
    rw [← List.forall_iff_forall_mem]
    decide +kernel
  obtain ⟨state, ran, seen⟩ := Option.map_eq_some_iff.mp observed
  simp only [Prod.mk.injEq] at seen
  have delivered := delivered_once_and_in_order nodeOfTwo nodeOfTwo_accepted threeIdsRun state
    readable ran
  exact ⟨state, ran, seen.1, seen.2, delivered.1 0, delivered.2.1 0 1 (by decide)⟩

end Ferroid.Server
