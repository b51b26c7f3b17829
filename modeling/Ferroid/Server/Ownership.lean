import Ferroid.Server.Preservation

/-!
Contract: every sender that a feed task waits for is somewhere.

Owns the converse of the links of `Server.Invariant`: a channel whose sender is
queued has its request in the inbox of its worker, and one whose sender is held
has that worker at work on it.

Does not own what workers do with the requests they have.
-/

namespace Ferroid.Server

open Ferroid.Id
open Ferroid.Generator
open Ferroid.Library

/-! ## Owners -/

/-- The request whose sender a channel of a call belongs to. -/
def ChunkChannel.request (channel : ChunkChannel) (index : Nat) : StreamRequest :=
  ⟨index, channel.number, channel.size⟩

/-- The sender of a channel is where the channel says. -/
def OwnedBy (workers : Nat → Worker) (index : Nat) (channel : ChunkChannel) : Prop :=
  match channel.sender with
  | .queued => WorkRequest.stream (channel.request index) ∈ (workers channel.worker).inbox
  | .held => ∃ job, (workers channel.worker).phase = .handling job ∧
      job.request = channel.request index
  | .dropped => True

/-- Workers that a feed task deals with exist, and own what they should. -/
def StageOwned (config : ServerConfig) (workers : Nat → Worker) (index : Nat) : Stage → Prop
  | .sending worker _ | .pushing worker _ => worker < config.numWorkers
  | .receiving channel | .forwarding channel _ =>
      channel.worker < config.numWorkers ∧ OwnedBy workers index channel
  | .top | .checking _ | .picking _ | .failing _ => True

def CallOwned (config : ServerConfig) (workers : Nat → Worker) (index : Nat) (call : Call) :
    Prop :=
  match call.phase with
  | .feeding _ stage => StageOwned config workers index stage
  | _ => True

def Owned (config : ServerConfig) (state : State) : Prop :=
  ∀ index, CallOwned config state.workers index (state.calls index)

theorem owned_initial (config : ServerConfig) : Owned config (initial config) :=
  fun _ => trivial

section Frame

variable {config : ServerConfig} {state next : State}

/-- A worker keeps the requests it has, except one. -/
structure Retains (except : StreamRequest → Prop) (before after : Worker) : Prop where
  inbox : ∀ request, ¬ except request → WorkRequest.stream request ∈ before.inbox →
    WorkRequest.stream request ∈ after.inbox
  job : ∀ job, before.phase = .handling job → ¬ except job.request →
    ∃ after', after.phase = .handling after' ∧ after'.request = job.request

/-- A channel whose worker keeps its request keeps its owner. -/
theorem OwnedBy.retains {workers : Nat → Worker} {index owner : Nat} {worker : Worker}
    {channel : ChunkChannel} {except : StreamRequest → Prop}
    (owned : OwnedBy workers index channel) (retains : Retains except (workers owner) worker)
    (kept : channel.worker = owner → ¬ except (channel.request index)) :
    OwnedBy (Function.update workers owner worker) index channel := by
  unfold OwnedBy at *
  by_cases here : channel.worker = owner
  · rw [here, Function.update_self]
    rw [here] at owned
    cases sender : channel.sender with
    | queued =>
        simp only [sender] at owned
        exact retains.inbox _ (kept here) owned
    | held =>
        simp only [sender] at owned
        obtain ⟨job, at_phase, request⟩ := owned
        obtain ⟨after, afterPhase, same⟩ := retains.job job at_phase (request ▸ kept here)
        exact ⟨after, afterPhase, same.trans request⟩
    | dropped => trivial
  · rw [Function.update_of_ne here]
    exact owned

theorem CallOwned.retains {workers : Nat → Worker} {index owner : Nat} {worker : Worker}
    {call : Call} {except : StreamRequest → Prop} (owned : CallOwned config workers index call)
    (retains : Retains except (workers owner) worker)
    (kept : ∀ channel, call.channel? channel.number = some channel → channel.worker = owner →
      ¬ except (channel.request index)) :
    CallOwned config (Function.update workers owner worker) index call := by
  unfold CallOwned at *
  split
  · next remaining stage at_phase =>
      simp only [at_phase] at owned
      cases stage with
      | receiving channel =>
          have found : call.channel? channel.number = some channel :=
            channel?_eq_some.mpr ⟨rfl, remaining, Or.inl at_phase⟩
          exact ⟨owned.1, owned.2.retains retains (kept channel found)⟩
      | forwarding channel chunk =>
          have found : call.channel? channel.number = some channel :=
            channel?_eq_some.mpr ⟨rfl, remaining, Or.inr ⟨chunk, at_phase⟩⟩
          exact ⟨owned.1, owned.2.retains retains (kept channel found)⟩
      | _ => exact owned
  · trivial

/-- A worker that keeps everything it has. -/
theorem Owned.updateWorker (owned : Owned config state) {owner : Nat} {worker : Worker}
    (calls : next.calls = state.calls)
    (workers : next.workers = Function.update state.workers owner worker)
    (retains : Retains (fun _ => False) (state.workers owner) worker) : Owned config next := by
  intro index
  rw [calls, workers]
  exact (owned index).retains retains fun _ _ _ => id

/-- A worker does something to the sender of one request, and keeps the others. -/
theorem Owned.updateChannel (owned : Owned config state) {request : StreamRequest} {owner : Nat}
    {worker : Worker} {change : ChunkChannel → ChunkChannel} (except : StreamRequest → Prop)
    (calls : next.calls = Function.update state.calls request.call
      ((state.calls request.call).mapChannel request.channel change))
    (workers : next.workers = Function.update state.workers owner worker)
    (retains : Retains except (state.workers owner) worker)
    (only : ∀ other, except other → other = request)
    (changed : ∀ channel, (state.calls request.call).channel? request.channel = some channel →
      OwnedBy state.workers request.call channel → (change channel).worker = channel.worker ∧
        OwnedBy next.workers request.call (change channel)) : Owned config next := by
  intro index
  rw [calls]
  by_cases same : index = request.call
  · subst same
    rw [Function.update_self]
    have before := owned request.call
    rcases (state.calls request.call).mapChannel_cases request.channel change with
      ⟨closed, same⟩ | ⟨remaining, channel, number, at_phase, mapped⟩ |
        ⟨remaining, channel, chunk, number, at_phase, mapped⟩
    · rw [same, workers]
      apply before.retains retains
      intro channel isFound _ excepted
      have isRequest : channel.number = request.channel :=
        congrArg StreamRequest.channel (only _ excepted)
      rw [isRequest, closed] at isFound
      cases isFound
    · rw [mapped]
      simp only [CallOwned, at_phase, StageOwned] at before ⊢
      obtain ⟨isWorker, after⟩ := changed channel
        (channel?_eq_some.mpr ⟨number, remaining, Or.inl at_phase⟩) before.2
      exact ⟨isWorker ▸ before.1, after⟩
    · rw [mapped]
      simp only [CallOwned, at_phase, StageOwned] at before ⊢
      obtain ⟨isWorker, after⟩ := changed channel
        (channel?_eq_some.mpr ⟨number, remaining, Or.inr ⟨chunk, at_phase⟩⟩) before.2
      exact ⟨isWorker ▸ before.1, after⟩
  · rw [Function.update_of_ne same, workers]
    exact (owned index).retains retains fun channel _ _ excepted =>
      same (congrArg StreamRequest.call (only _ excepted))

end Frame

/-! ## Steps -/

section Step

variable {config : ServerConfig} {state next : State}

theorem CallMoves.owned {workers : Nat → Worker} {index : Nat} {call after : Call}
    {inflight : BitVec 64} {nextWorker : Nat} (checked : config.Checked)
    (moves : CallMoves config state call after inflight nextWorker)
    (owned : CallOwned config workers index call) : CallOwned config workers index after := by
  cases moves with
  | pick remaining chunkSize at_phase => exact Nat.mod_lt _ checked.numWorkers_pos
  | take remaining channel chunk queue at_phase waiting =>
      simp only [CallOwned, at_phase] at owned
      exact owned
  | forward remaining channel chunk at_phase connected room =>
      simp only [CallOwned, at_phase] at owned
      exact owned
  | _ => trivial

theorem WorkMoves.retains {now : ServerLayout.Ty} {worker after : Worker}
    (moves : WorkMoves config state now worker after) : Retains (fun _ => False) worker after := by
  cases moves with
  | start at_phase fits =>
      refine ⟨fun _ _ member => member, ?_⟩
      intro job handling
      rw [at_phase] at handling
      cases handling
  | takeShutdown inbox at_phase waiting =>
      constructor
      · intro request _ member
        rw [waiting] at member
        simpa using member
      · intro job handling
        rw [at_phase] at handling
        cases handling
  | pause job at_phase =>
      exact ⟨fun _ _ member => member, fun job at_phase _ => ⟨job, at_phase, rfl⟩⟩
  | write job id at_phase | rest job at_phase | full job at_phase =>
      refine ⟨fun _ _ member => member, ?_⟩
      intro other handling _
      rw [at_phase] at handling
      cases handling
      exact ⟨_, rfl, rfl⟩

/-- Only a call changes. -/
theorem Owned.updateCall (owned : Owned config state) {index : Nat} {call : Call}
    (calls : next.calls = Function.update state.calls index call)
    (workers : next.workers = state.workers)
    (after : CallOwned config state.workers index call) : Owned config next := by
  unfold Owned
  rw [calls, workers, Function.forall_update_iff state.calls
    fun other call => CallOwned config state.workers other call]
  exact ⟨after, fun other _ => owned other⟩

/-- What happens to a worker while its inbox is dropped does not matter. -/
theorem dropInbox_setWorker (between : Worker) {index : Nat} {worker : Worker}
    (inbox : List WorkRequest) :
    ((state.setWorker index between).dropInbox inbox).setWorker index worker =
      (state.dropInbox inbox).setWorker index worker := by
  induction inbox generalizing state with
  | nil => simp [State.dropInbox, State.setWorker]
  | cons work rest inductionHypothesis =>
      cases work with
      | stream request =>
          show ((((state.mapChannel request .drop).setWorker index between).dropInbox
            rest).setWorker index worker) = _
          exact inductionHypothesis
      | shutdown => exact inductionHypothesis

/-- An idle worker goes away with its inbox. -/
theorem Owned.leave (owned : Owned config state) {index : Nat} {worker : Worker}
    (short : (state.workers index).inbox.length ≤ inboxCapacity)
    (idle : ∀ job, (state.workers index).phase ≠ .handling job) :
    Owned config ((state.dropInbox (state.workers index).inbox).setWorker index worker) := by
  rcases dropInbox_cases short with ⟨none, same⟩ | ⟨request, waiting, dropped⟩
  · rw [same]
    exact owned.updateWorker rfl rfl
      ⟨fun request _ member => absurd member (none request),
        fun job handling => absurd handling (idle job)⟩
  · rw [dropped]
    refine owned.updateChannel (· = request) rfl rfl
      ⟨?_, fun job handling => absurd handling (idle job)⟩ (fun _ same => same)
      fun channel _ _ => ⟨rfl, trivial⟩
    intro other different member
    simp only [waiting, List.mem_singleton, WorkRequest.stream.injEq] at member
    exact absurd member different

/-- A worker is done with its request. -/
theorem Owned.release (owned : Owned config state) {index : Nat} {job : Job} {worker : Worker}
    {change : ChunkChannel → ChunkChannel}
    (at_phase : (state.workers index).phase = .handling job)
    (calls : next.calls = Function.update state.calls job.request.call
      ((state.calls job.request.call).mapChannel job.request.channel change))
    (workers : next.workers = Function.update state.workers index worker)
    (inbox : worker.inbox = (state.workers index).inbox)
    (dropped : ∀ channel, (change channel).worker = channel.worker ∧
      (change channel).sender = .dropped) : Owned config next := by
  refine owned.updateChannel (· = job.request) calls workers ⟨?_, ?_⟩ (fun _ same => same) ?_
  · intro request _ member
    rwa [inbox]
  · intro other handling different
    rw [at_phase] at handling
    cases handling
    exact absurd rfl different
  · intro channel _ _
    refine ⟨(dropped channel).1, ?_⟩
    rw [OwnedBy, (dropped channel).2]
    trivial

/-- A step keeps the owners where inboxes are short and requests name their worker and
size as their channels do. -/
theorem Owned.step_of_named (checked : config.Checked) {label : Label}
    (short : ∀ worker, (state.workers worker).inbox.length ≤ inboxCapacity)
    (named : ∀ worker request, WorkRequest.stream request ∈ (state.workers worker).inbox →
      ∀ channel, (state.calls request.call).channel? request.channel = some channel →
        channel.worker = worker ∧ channel.size = request.chunkSize)
    (owned : Owned config state) (stepped : Server.step config state label = some next) :
    Owned config next := by
  cases moves_of_step stepped with
  | arrive count bound => exact owned.updateCall rfl rfl trivial
  | call index after inflight nextWorker moves =>
      exact owned.updateCall rfl rfl (moves.owned checked (owned index))
  | reserve index remaining worker chunkSize at_phase up room =>
      have known := owned index
      simp only [CallOwned, at_phase, StageOwned] at known
      have kept : Owned config (state.setWorker worker
          { state.workers worker with permits := index :: (state.workers worker).permits }) :=
        owned.updateWorker rfl rfl ⟨fun _ _ member => member,
          fun job handling _ => ⟨job, handling, rfl⟩⟩
      exact kept.updateCall rfl rfl known
  | send index remaining worker chunkSize at_phase =>
      have known := owned index
      simp only [CallOwned, at_phase, StageOwned] at known
      have kept : Owned config (state.setWorker worker
          { state.workers worker with
            inbox := (state.workers worker).inbox ++
              [.stream ⟨index, (state.calls index).channels, chunkSize⟩]
            permits := (state.workers worker).permits.erase index }) :=
        owned.updateWorker rfl rfl ⟨fun _ _ member => List.mem_append_left _ member,
          fun job handling _ => ⟨job, handling, rfl⟩⟩
      refine kept.updateCall rfl rfl ⟨known, ?_⟩
      simp [OwnedBy, State.setWorker, ChunkChannel.request]
  | receive index item resp stream connected waiting =>
      exact owned.updateCall rfl rfl (owned index)
  | disconnect index stream connected => exact owned.updateCall rfl rfl (owned index)
  | work index now after known moves => exact owned.updateWorker rfl rfl moves.retains
  | allocationPanic index now known at_phase large =>
      exact owned.leave (short index) (by simp [at_phase])
  | takeStream index now request inbox known at_phase waiting =>
      refine owned.updateChannel (· = request) rfl rfl ⟨?_, ?_⟩ (fun _ same => same) ?_
      · intro other different member
        rw [waiting] at member
        rcases List.mem_cons.mp member with same | later
        · cases same
          exact absurd rfl different
        · exact later
      · intro job handling
        rw [at_phase] at handling
        cases handling
      · intro held isHeld _
        obtain ⟨isWorker, size⟩ := named index request (by simp [waiting]) held isHeld
        refine ⟨rfl, ⟨request, 0, .generating⟩, ?_, ?_⟩
        · simp only [ChunkChannel.hold, isWorker, State.setWorker, Function.update_self]
        · obtain ⟨number, _⟩ := channel?_eq_some.mp isHeld
          simp only [ChunkChannel.request, ChunkChannel.hold, number, size]
  | indexPanic index now job id known at_phase generating more ready beyond =>
      -- the job is given up first, and the inbox after it
      have released : Owned config (finishJob state index (state.workers index) job) :=
        owned.release at_phase rfl rfl rfl fun _ => ⟨rfl, rfl⟩
      rw [← dropInbox_setWorker { state.workers index with phase := .waiting }]
      have waiting : (finishJob state index (state.workers index) job).workers index =
          { state.workers index with phase := .waiting } := Function.update_self ..
      have left : ∀ worker, Owned config (((finishJob state index (state.workers index)
          job).dropInbox ((finishJob state index (state.workers index) job).workers
            index).inbox).setWorker index worker) := by
        intro worker
        apply released.leave
        · rw [waiting]
          exact short index
        · simp [waiting]
      rw [waiting] at left
      exact left _
  | finish index now job known at_phase finishes =>
      exact owned.release at_phase rfl rfl rfl fun _ => ⟨rfl, rfl⟩
  | pushFull index now job bytes known at_phase sending alive room =>
      have retains : Retains (fun _ => False) (state.workers index)
          { state.workers index with
            buffPos := 0
            phase := .handling { job with point := .generating }
            sent := (state.workers index).sent ++ [bytes] } := by
        refine ⟨fun _ _ member => member, fun other handling _ => ?_⟩
        rw [at_phase] at handling
        cases handling
        exact ⟨_, rfl, rfl⟩
      apply owned.updateChannel (fun _ => False) rfl rfl retains (fun _ => False.elim)
      intro channel _ before
      exact ⟨rfl, before.retains retains fun _ => id⟩
  | pushRest index now job bytes known at_phase sending alive room =>
      rw [finishJob, State.mapChannel_mapChannel _ _ (.push bytes) .drop fun _ => rfl]
      exact owned.release at_phase rfl rfl rfl fun _ => ⟨rfl, rfl⟩
  | stop index now known at_phase =>
      exact owned.leave (short index) (by simp [at_phase])
  | abort | beginShutdown | drain | cancel | skip | finishShutdown => exact owned
  | notify timeout index at_phase known up room =>
      exact owned.updateWorker rfl rfl ⟨fun _ _ member => List.mem_append_left _ member,
        fun job handling _ => ⟨job, handling, rfl⟩⟩

theorem Owned.step (checked : config.Checked) {label : Label} (inv : Inv config state)
    (owned : Owned config state) (stepped : Server.step config state label = some next) :
    Owned config next := by
  refine owned.step_of_named checked (fun worker => (inv.workers worker).short) ?_ stepped
  intro worker request member channel found
  obtain ⟨linked, _⟩ := (inv.workers worker).queued request member
  obtain ⟨held, isHeld, isWorker, size, _⟩ := linked
  obtain rfl := channel?_unique found isHeld
  exact ⟨isWorker, size⟩

/-- A safe run keeps the owners. -/
theorem Owned.run (checked : config.Checked) {labels : List Label}
    (meets : Transition.Meets (Server.step config) (Safe config) (initial config) labels)
    (ran : Transition.run (Server.step config) (initial config) labels = some next) :
    Owned config next := by
  refine (Transition.run_invariant
    (fun state => Inv config state ∧ Permitted state ∧ Owned config state) ?_
    ⟨inv_initial config, permitted_initial config, owned_initial config⟩ meets ran).2.2
  rintro state label next ⟨inv, permitted, owned⟩ safe stepped
  exact ⟨inv.step checked permitted safe stepped, permitted.step inv.absent stepped,
    owned.step checked inv stepped⟩

end Step

end Ferroid.Server
