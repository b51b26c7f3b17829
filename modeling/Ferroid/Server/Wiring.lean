import Ferroid.Server.Ownership

/-!
Contract: how calls, workers and the shutdown are connected, in every run.

Owns the part of the invariant that no step can break, not even one that loses a
request to a worker that leaves: messages and permits fit the inboxes, requests name
their channels, every sender that a feed task waits for is somewhere, and a worker that
was told to leave is leaving.

Does not own what streams contain (`Server.Invariant`).
-/

namespace Ferroid.Server

open Ferroid.Id
open Ferroid.Generator
open Ferroid.Library

/-! ## Workers by themselves -/

/-- The worker has left, is leaving, or will find the message that it should. -/
def Worker.Leaving (worker : Worker) : Prop :=
  worker.isDown = true ∨ worker.phase = .stopping ∨ .shutdown ∈ worker.inbox

/-- The worker has a request, in its inbox or at work. -/
def Worker.Has (worker : Worker) (request : StreamRequest) : Prop :=
  .stream request ∈ worker.inbox ∨ ∃ job, worker.phase = .handling job ∧ job.request = request

/-- What every step does to a worker: it stays on its way out, and gone for good. -/
structure Turn (before after : Worker) : Prop where
  leaving : before.Leaving → after.Leaving
  down : before.isDown = true → after.isDown = true

theorem Turn.refl (worker : Worker) : Turn worker worker := ⟨id, id⟩

section Turns

variable {config : ServerConfig} {state next : State} {now : ServerLayout.Ty}
  {before after : Worker}

/-- The inbox stays, and the worker does not go away. -/
theorem Turn.stays (inbox : after.inbox = before.inbox)
    (running : before.isDown = false ∧ before.phase ≠ .stopping) : Turn before after := by
  constructor
  · rintro (down | stopping | told)
    · rw [running.1] at down
      cases down
    · exact absurd stopping running.2
    · exact Or.inr (Or.inr (inbox ▸ told))
  · intro down
    rw [running.1] at down
    cases down

/-- The worker goes away. -/
theorem Turn.leaves (down : after.isDown = true) : Turn before after :=
  ⟨fun _ => Or.inl down, fun _ => down⟩

/-- The phase stays, and no message is lost. -/
theorem Turn.keeps (phase : after.phase = before.phase)
    (inbox : ∀ work ∈ before.inbox, work ∈ after.inbox) : Turn before after := by
  have same : after.isDown = before.isDown := by simp only [Worker.isDown, phase]
  refine ⟨?_, fun down => same.trans down⟩
  rintro (down | stopping | told)
  · exact Or.inl (same.trans down)
  · exact Or.inr (Or.inl (phase.trans stopping))
  · exact Or.inr (Or.inr (inbox _ told))

theorem running_of_handling {job : Job} (at_phase : before.phase = .handling job) :
    before.isDown = false ∧ before.phase ≠ .stopping := by
  simp [Worker.isDown, at_phase]

theorem running_of_waiting (at_phase : before.phase = .waiting) :
    before.isDown = false ∧ before.phase ≠ .stopping := by
  simp [Worker.isDown, at_phase]

theorem WorkMoves.turn (moves : WorkMoves config state now before after) : Turn before after := by
  cases moves with
  | start at_phase fits => exact .stays rfl (by simp [Worker.isDown, at_phase])
  | takeShutdown inbox at_phase waiting =>
      refine ⟨fun _ => Or.inr (Or.inl rfl), fun down => ?_⟩
      rw [(running_of_waiting at_phase).1] at down
      cases down
  | pause job at_phase | write job id at_phase | rest job at_phase | full job at_phase =>
      exact .stays rfl (running_of_handling at_phase)

/-- Every step gives every worker its turn. -/
theorem turn_of_step {label : Label} (stepped : Server.step config state label = some next)
    (worker : Nat) : Turn (state.workers worker) (next.workers worker) := by
  have update : ∀ index after, Turn (state.workers index) after →
      Turn (state.workers worker) (Function.update state.workers index after worker) := by
    intro index after turn
    by_cases same : worker = index
    · rw [same, Function.update_self]
      exact turn
    · rw [Function.update_of_ne same]
      exact .refl _
  cases moves_of_step stepped with
  | arrive | call | receive | disconnect | abort | beginShutdown | drain | cancel | skip
  | finishShutdown => exact .refl _
  | reserve index remaining owner => exact update owner _ (.keeps rfl fun _ => id)
  | send index remaining owner =>
      exact update owner _ (.keeps rfl fun _ member => List.mem_append_left _ member)
  | notify timeout index =>
      exact update index _ (.keeps rfl fun _ member => List.mem_append_left _ member)
  | work index now after known moves => exact update index after moves.turn
  | allocationPanic index | stop index | indexPanic index =>
      rw [dropInbox_eq]
      exact update index _ (.leaves rfl)
  | takeStream index now request inbox known at_phase waiting =>
      apply update index
      have running := running_of_waiting at_phase
      constructor
      · rintro (down | stopping | told)
        · rw [running.1] at down
          cases down
        · exact absurd stopping running.2
        · rw [waiting] at told
          exact Or.inr (Or.inr (by simpa using told))
      · intro down
        rw [running.1] at down
        cases down
  | finish index now job known at_phase | pushFull index now job bytes known at_phase
  | pushRest index now job bytes known at_phase =>
      exact update index _ (.stays rfl (running_of_handling at_phase))

end Turns

/-! ## Names of channels -/

/-- Channels that have a number and are not open yet. -/
def Stage.unopened : Stage → Nat
  | .checking _ | .picking _ | .sending _ _ | .pushing _ _ => 1
  | .top | .receiving _ | .forwarding _ _ | .failing _ => 0

def CallPhase.unopened : CallPhase → Nat
  | .feeding _ stage => stage.unopened
  | _ => 0

/-- A request at a worker names a channel that was opened for it. -/
structure Named (call : Call) (worker : Nat) (request : StreamRequest) : Prop where
  opened : request.channel + call.phase.unopened ≤ call.channels
  agrees : ∀ channel, call.channel? request.channel = some channel →
    channel.worker = worker ∧ channel.size = request.chunkSize

/-- A change of a channel keeps what requests know of it. -/
structure KeepsName (change : ChunkChannel → ChunkChannel) : Prop where
  number : ∀ channel, (change channel).number = channel.number
  worker : ∀ channel, (change channel).worker = channel.worker
  size : ∀ channel, (change channel).size = channel.size

theorem keepsName_hold : KeepsName .hold := ⟨fun _ => rfl, fun _ => rfl, fun _ => rfl⟩

theorem keepsName_drop : KeepsName .drop := ⟨fun _ => rfl, fun _ => rfl, fun _ => rfl⟩

theorem keepsName_push (chunk : IdChunk) : KeepsName (.push chunk) :=
  ⟨fun _ => rfl, fun _ => rfl, fun _ => rfl⟩

section Names

variable {config : ServerConfig} {state next : State} {call after : Call} {worker : Nat}
  {request : StreamRequest}

/-- A call without an open channel disagrees with no request. -/
theorem Named.close (named : Named call worker request)
    (closed : ∀ number, after.channel? number = none)
    (opened : after.phase.unopened + call.channels ≤ after.channels + call.phase.unopened) :
    Named after worker request := by
  have before := named.opened
  refine ⟨by omega, ?_⟩
  intro channel found
  rw [closed] at found
  cases found

theorem Call.unopened_mapChannel (call : Call) (number : Nat)
    (change : ChunkChannel → ChunkChannel) :
    (call.mapChannel number change).phase.unopened = call.phase.unopened ∧
      (call.mapChannel number change).channels = call.channels := by
  rcases call.mapChannel_cases number change with
    ⟨_, same⟩ | ⟨remaining, channel, _, at_phase, mapped⟩ |
      ⟨remaining, channel, chunk, _, at_phase, mapped⟩
  · rw [same]
    exact ⟨rfl, rfl⟩
  · rw [mapped, at_phase]
    exact ⟨rfl, rfl⟩
  · rw [mapped, at_phase]
    exact ⟨rfl, rfl⟩

/-- A change of another channel leaves this one alone, since only one is open. -/
theorem Named.mapChannel (named : Named call worker request) (number : Nat)
    {change : ChunkChannel → ChunkChannel} (keeps : KeepsName change) :
    Named (call.mapChannel number change) worker request := by
  obtain ⟨unopened, channels⟩ := call.unopened_mapChannel number change
  refine ⟨by rw [unopened, channels]; exact named.opened, ?_⟩
  intro channel found
  rcases call.mapChannel_cases number change with
    ⟨_, same⟩ | ⟨remaining, held, _, at_phase, mapped⟩ |
      ⟨remaining, held, chunk, _, at_phase, mapped⟩
  · rw [same] at found
    exact named.agrees channel found
  · rw [mapped] at found
    obtain ⟨isNumber, _, stage | ⟨_, stage⟩⟩ := channel?_eq_some.mp found
    · cases stage
      rw [keeps.number] at isNumber
      rw [keeps.worker, keeps.size]
      exact named.agrees held (channel?_eq_some.mpr ⟨isNumber, remaining, Or.inl at_phase⟩)
    · cases stage
  · rw [mapped] at found
    obtain ⟨isNumber, _, stage | ⟨_, stage⟩⟩ := channel?_eq_some.mp found
    · cases stage
    · cases stage
      rw [keeps.number] at isNumber
      rw [keeps.worker, keeps.size]
      exact named.agrees held
        (channel?_eq_some.mpr ⟨isNumber, remaining, Or.inr ⟨chunk, at_phase⟩⟩)

theorem CallMoves.named {inflight : BitVec 64} {nextWorker : Nat}
    (moves : CallMoves config state call after inflight nextWorker)
    (named : Named call worker request) : Named after worker request := by
  cases moves with
  | take remaining channel chunk queue at_phase waiting =>
      have opened := named.opened
      rw [at_phase] at opened
      refine ⟨opened, fun held found => ?_⟩
      obtain ⟨isNumber, _, stage | ⟨_, stage⟩⟩ := channel?_eq_some.mp found
      · cases stage
      · cases stage
        exact named.agrees channel
          (channel?_eq_some.mpr ⟨isNumber, remaining, Or.inl at_phase⟩)
  | forward remaining channel chunk at_phase connected room =>
      have opened := named.opened
      rw [at_phase] at opened
      refine ⟨opened, fun held found => ?_⟩
      obtain ⟨isNumber, _, stage | ⟨_, stage⟩⟩ := channel?_eq_some.mp found
      · cases stage
        exact named.agrees channel
          (channel?_eq_some.mpr ⟨isNumber, remaining, Or.inr ⟨chunk, at_phase⟩⟩)
      · cases stage
  | cut _ at_phase | refuse at_phase | check at_phase | zero at_phase | tooMany at_phase
  | count at_phase | spawn at_phase | burst at_phase | complete at_phase | cancelled _ _ at_phase
  | proceed _ _ at_phase | pick _ _ at_phase | down _ _ _ at_phase | drained _ _ at_phase
  | fail _ _ at_phase | giveUp _ _ at_phase | leave at_phase =>
      refine named.close (fun _ => rfl) ?_
      rw [at_phase]
      simp only [CallPhase.unopened, Stage.unopened]
      omega

/-- Requests at workers name their channels. -/
def AllNamed (state : State) : Prop :=
  ∀ worker request, (state.workers worker).Has request →
    Named (state.calls request.call) worker request

/-- A step that keeps the names and gives no worker a new request. -/
theorem AllNamed.frame (allNamed : AllNamed state)
    (calls : ∀ index worker request, Named (state.calls index) worker request →
      Named (next.calls index) worker request)
    (has : ∀ worker request, (next.workers worker).Has request →
      (state.workers worker).Has request) : AllNamed next := by
  intro worker request held
  exact calls _ _ _ (allNamed worker request (has worker request held))

theorem named_update {index : Nat}
    (changed : ∀ worker request, Named (state.calls index) worker request →
      Named after worker request) (other worker : Nat) (request : StreamRequest)
    (named : Named (state.calls other) worker request) :
    Named (Function.update state.calls index after other) worker request := by
  by_cases same : other = index
  · subst same
    rw [Function.update_self]
    exact changed worker request named
  · rwa [Function.update_of_ne same]

theorem has_update {index : Nat} {before : Worker}
    (changed : ∀ request, before.Has request → (state.workers index).Has request)
    (worker : Nat) (request : StreamRequest)
    (has : (Function.update state.workers index before worker).Has request) :
    (state.workers worker).Has request := by
  by_cases same : worker = index
  · subst same
    rw [Function.update_self] at has
    exact changed request has
  · rwa [Function.update_of_ne same] at has

theorem named_mapChannel (target : StreamRequest) {change : ChunkChannel → ChunkChannel}
    (keeps : KeepsName change) (index worker : Nat) (request : StreamRequest)
    (named : Named (state.calls index) worker request) :
    Named ((state.mapChannel target change).calls index) worker request :=
  named_update (fun _ _ named => named.mapChannel _ keeps) index worker request named

theorem named_dropInbox (inbox : List WorkRequest) (index worker : Nat) (request : StreamRequest)
    (named : Named (state.calls index) worker request) :
    Named ((state.dropInbox inbox).calls index) worker request := by
  induction inbox generalizing state with
  | nil => exact named
  | cons work rest inductionHypothesis =>
      cases work with
      | stream target =>
          exact inductionHypothesis
            (named_mapChannel target keepsName_drop index worker request named)
      | shutdown => exact inductionHypothesis named

/-- A worker that leaves has nothing. -/
theorem not_has_of_left {before : Worker} (inbox : before.inbox = []) (down : before.isDown = true)
    (request : StreamRequest) : ¬ before.Has request := by
  rintro (member | ⟨job, at_phase, _⟩)
  · rw [inbox] at member
    cases member
  · simp [Worker.isDown, at_phase] at down

/-- A worker that is at work on what it had gets no new request. -/
theorem Worker.Has.before {before after : Worker} (has : after.Has request)
    (inbox : ∀ other, .stream other ∈ after.inbox → .stream other ∈ before.inbox)
    (jobs : ∀ job, after.phase = .handling job → before.Has job.request) :
    before.Has request := by
  rcases has with member | ⟨job, at_phase, same⟩
  · exact Or.inl (inbox request member)
  · rw [← same]
    exact jobs job at_phase

theorem WorkMoves.has {now : ServerLayout.Ty} {before after : Worker}
    (moves : WorkMoves config state now before after) (has : after.Has request) :
    before.Has request := by
  cases moves with
  | start =>
      refine has.before (fun _ => id) fun job handling => ?_
      cases handling
  | takeShutdown inbox at_phase waiting =>
      refine has.before (fun other member => ?_) fun job handling => ?_
      · rw [waiting]
        exact List.mem_cons_of_mem _ member
      · cases handling
  | pause => exact has
  | write job _ at_phase | rest job at_phase | full job at_phase =>
      refine has.before (fun _ => id) fun other handling => ?_
      cases handling
      exact Or.inr ⟨job, at_phase, rfl⟩

/-- A worker in a request stays in it, or waits for the next one. -/
theorem Worker.Has.of_handling {before after : Worker} {job : Job}
    (at_phase : before.phase = .handling job) (inbox : after.inbox = before.inbox)
    (phase : after.phase = .waiting ∨
      ∃ other, after.phase = .handling other ∧ other.request = job.request)
    (has : after.Has request) : before.Has request := by
  refine has.before (fun _ member => inbox ▸ member) fun other handling => ?_
  rw [handling] at phase
  rcases phase with waiting | ⟨_, same, isRequest⟩
  · cases waiting
  · cases same
    exact Or.inr ⟨job, at_phase, isRequest.symm⟩

/-- A feed task opens the channel it has the number of. -/
theorem AllNamed.send (allNamed : AllNamed state) {index remaining owner chunkSize : Nat}
    (at_phase : (state.calls index).phase = .feeding remaining (.pushing owner chunkSize)) :
    AllNamed ((state.setCall index
      { state.calls index with
        phase := .feeding remaining (.receiving
          ⟨(state.calls index).channels, owner, chunkSize, .queued, false, []⟩) }).setWorker owner
      { state.workers owner with
        inbox := (state.workers owner).inbox ++
          [.stream ⟨index, (state.calls index).channels, chunkSize⟩]
        permits := (state.workers owner).permits.erase index }) := by
  -- requests of this call that are at workers have smaller numbers
  have older : ∀ worker request, Named (state.calls index) worker request →
      Named { state.calls index with
        phase := .feeding remaining (.receiving
          ⟨(state.calls index).channels, owner, chunkSize, .queued, false, []⟩) }
        worker request := by
    intro worker request named
    have opened := named.opened
    simp only [at_phase, CallPhase.unopened, Stage.unopened] at opened
    refine ⟨Nat.le_of_succ_le opened, fun channel found => ?_⟩
    obtain ⟨isNumber, _, stage | ⟨_, stage⟩⟩ := channel?_eq_some.mp found
    · cases stage
      simp only at isNumber
      omega
    · cases stage
  have earlier : ∀ worker request, (state.workers worker).Has request →
      Named ((state.setCall index
        { state.calls index with
          phase := .feeding remaining (.receiving
            ⟨(state.calls index).channels, owner, chunkSize, .queued, false, []⟩) }).calls
        request.call) worker request := by
    intro worker request has
    exact named_update older _ _ _ (allNamed worker request has)
  intro worker request has
  by_cases isOwner : worker = owner
  · subst isOwner
    simp only [State.setWorker, Function.update_self] at has
    rcases has with member | atWork
    · rcases List.mem_append.mp member with old | new
      · exact earlier worker request (Or.inl old)
      · cases List.mem_singleton.mp new
        simp only [State.setWorker, State.setCall, Function.update_self]
        refine ⟨Nat.le_refl _, fun channel found => ?_⟩
        obtain ⟨_, _, stage | ⟨_, stage⟩⟩ := channel?_eq_some.mp found
        · cases stage
          exact ⟨rfl, rfl⟩
        · cases stage
    · exact earlier worker request (Or.inr atWork)
  · simp only [State.setWorker, Function.update_of_ne isOwner] at has
    exact earlier worker request has

theorem AllNamed.step {label : Label} (allNamed : AllNamed state)
    (absent : state.calls state.arrivals = Call.absent)
    (stepped : Server.step config state label = some next) : AllNamed next := by
  cases moves_of_step stepped with
  | arrive count bound =>
      refine allNamed.frame (named_update fun worker request named => ?_) fun _ _ => id
      rw [absent] at named
      exact named.close (fun _ => rfl) (Nat.le_refl _)
  | call index after inflight nextWorker moves =>
      exact allNamed.frame (named_update fun _ _ named => moves.named named) fun _ _ => id
  | reserve index remaining owner chunkSize at_phase =>
      refine allNamed.frame (named_update fun _ _ named => named.close (fun _ => rfl) ?_)
        (has_update fun _ => id)
      rw [at_phase]
      exact Nat.le_of_eq (Nat.add_comm ..)
  | send index remaining worker chunkSize at_phase => exact allNamed.send at_phase
  | receive | disconnect =>
      refine allNamed.frame (named_update fun worker request named => ?_) fun _ _ => id
      exact ⟨named.opened, named.agrees⟩
  | abort | beginShutdown | drain | cancel | skip | finishShutdown => exact allNamed
  | work index now after known moves =>
      exact allNamed.frame (fun _ _ _ => id) (has_update fun _ => moves.has)
  | allocationPanic index now | stop index now =>
      rw [dropInbox_eq]
      exact allNamed.frame (named_dropInbox _)
        (has_update fun request has => absurd has (not_has_of_left rfl rfl request))
  | indexPanic index now job =>
      rw [dropInbox_eq]
      refine allNamed.frame (fun other worker request named => ?_)
        (has_update fun request has => absurd has (not_has_of_left rfl rfl request))
      exact named_dropInbox _ _ _ _ (named_mapChannel job.request keepsName_drop _ _ _ named)
  | takeStream index now request inbox known at_phase waiting =>
      have had : ∀ other, Worker.Has { state.workers index with
          inbox := inbox
          phase := .handling ⟨request, 0, .generating⟩ } other →
          (state.workers index).Has other := by
        intro other has
        refine has.before (fun _ member => ?_) fun job handling => ?_
        · rw [waiting]
          exact List.mem_cons_of_mem _ member
        · cases handling
          exact Or.inl (by simp [waiting])
      exact allNamed.frame (named_mapChannel request keepsName_hold) (has_update had)
  | finish index now job known at_phase =>
      exact allNamed.frame (named_mapChannel job.request keepsName_drop)
        (has_update fun _ => .of_handling at_phase rfl (Or.inl rfl))
  | pushFull index now job bytes known at_phase sending alive room =>
      exact allNamed.frame (named_mapChannel job.request (keepsName_push bytes))
        (has_update fun _ => .of_handling at_phase rfl (Or.inr ⟨_, rfl, rfl⟩))
  | pushRest index now job bytes known at_phase sending alive room =>
      refine allNamed.frame (fun other worker request named => ?_)
        (has_update fun _ => .of_handling at_phase rfl (Or.inl rfl))
      exact named_mapChannel job.request keepsName_drop _ _ _
        (named_mapChannel job.request (keepsName_push bytes) _ _ _ named)
  | notify timeout index at_phase known up room =>
      refine allNamed.frame (fun _ _ _ => id)
        (has_update fun other has => has.before (fun _ member => by simpa using member) ?_)
      intro job handling
      exact Or.inr ⟨job, handling, rfl⟩

end Names

/-! ## The whole -/

/-- Workers that the shutdown has passed. -/
def ManagerPhase.told (numWorkers : Nat) : ManagerPhase → Nat
  | .notifying index => index
  | .finished => numWorkers
  | .idle | .draining | .cancelling => 0

/-- What holds of every state the server can get into. -/
structure Wired (config : ServerConfig) (state : State) : Prop where
  absent : ∀ index, state.arrivals ≤ index → state.calls index = Call.absent
  arrived : ∀ index, index < state.arrivals → (state.calls index).phase ≠ .absent
  permitted : Permitted state
  named : AllNamed state
  owned : Owned config state
  told : ∀ worker, worker < state.manager.told config.numWorkers →
    (state.workers worker).Leaving

section Whole

variable {config : ServerConfig} {state next : State}

theorem wired_initial (config : ServerConfig) : Wired config (initial config) where
  absent _ _ := rfl
  arrived _ before := absurd before (Nat.not_lt_zero _)
  permitted := permitted_initial config
  named worker request has := by
    rcases has with member | ⟨job, at_phase, _⟩
    · cases member
    · cases at_phase
  owned := owned_initial config
  told _ before := absurd before (Nat.not_lt_zero _)

/-- Calls that have not arrived stay absent. -/
theorem absent_of_step {label : Label}
    (absent : ∀ index, state.arrivals ≤ index → state.calls index = Call.absent)
    (stepped : Server.step config state label = some next) :
    ∀ index, next.arrivals ≤ index → next.calls index = Call.absent := by
  have update : ∀ index after, state.calls index ≠ Call.absent → ∀ other,
      state.arrivals ≤ other → Function.update state.calls index after other = Call.absent := by
    intro index after present other beyond
    rw [Function.update_of_ne]
    · exact absent other beyond
    · rintro rfl
      exact present (absent other beyond)
  have moves := moves_of_step stepped
  cases label with
  | work worker now =>
      rw [moves.work_frame.2.2.2]
      have stable : ∀ call number change, call = Call.absent →
          Call.mapChannel call number change = Call.absent := by
        rintro _ number change rfl
        rfl
      intro index beyond
      exact moves.work_calls stable (absent index beyond)
  | arrive count =>
      cases moves with
      | arrive =>
          intro index beyond
          exact (Function.update_of_ne (Nat.ne_of_gt beyond) ..).trans
            (absent index (Nat.le_of_succ_le beyond))
  | call index =>
      cases moves with
      | call _ after _ _ moves => exact update index after moves.ne_absent
      | reserve _ remaining worker chunkSize at_phase
      | send _ remaining worker chunkSize at_phase =>
          apply update index
          intro isAbsent
          rw [isAbsent] at at_phase
          cases at_phase
  | receive index =>
      cases moves with
      | receive _ item resp stream => exact update index _ (ne_absent_of_hasStream stream)
  | disconnect index =>
      cases moves with
      | disconnect _ stream => exact update index _ (ne_absent_of_hasStream stream)
  | abort index => cases moves; exact absent
  | manage timeout => cases moves <;> exact absent

theorem phase_ne_absent_of_hasStream {call : Call} (stream : call.hasStream = true) :
    call.phase ≠ .absent := by
  intro absent
  simp [Call.hasStream, absent] at stream

/-- Calls that have arrived stay. -/
theorem arrived_of_step {label : Label}
    (arrived : ∀ index, index < state.arrivals → (state.calls index).phase ≠ .absent)
    (stepped : Server.step config state label = some next) :
    ∀ index, index < next.arrivals → (next.calls index).phase ≠ .absent := by
  have update : ∀ index after, after.phase ≠ .absent → ∀ other, other < state.arrivals →
      (Function.update state.calls index after other).phase ≠ .absent := by
    intro index after present other before
    by_cases same : other = index
    · rwa [same, Function.update_self]
    · rw [Function.update_of_ne same]
      exact arrived other before
  have moves := moves_of_step stepped
  cases label with
  | work worker now =>
      rw [moves.work_frame.2.2.2]
      have stable : ∀ call number change, call.phase ≠ .absent →
          (Call.mapChannel call number change).phase ≠ .absent := by
        intro call number change present
        rcases call.mapChannel_cases number change with
          ⟨_, same⟩ | ⟨_, _, _, _, mapped⟩ | ⟨_, _, _, _, _, mapped⟩
        · rwa [same]
        · simp [mapped]
        · simp [mapped]
      intro index before
      exact moves.work_calls stable (arrived index before)
  | arrive count =>
      cases moves with
      | arrive =>
          intro index before
          by_cases same : index = state.arrivals
          · rw [same]
            simp [State.setCall]
          · simp only [State.setCall, Function.update_of_ne same]
            exact arrived index (Nat.lt_of_le_of_ne (Nat.le_of_lt_succ before) same)
  | call index =>
      cases moves with
      | call _ after _ _ moves => exact update index after (by cases moves <;> simp)
      | reserve | send => exact update index _ (by simp)
  | receive index =>
      cases moves with
      | receive _ item resp stream => exact update index _ (phase_ne_absent_of_hasStream stream)
  | disconnect index =>
      cases moves with
      | disconnect _ stream => exact update index _ (phase_ne_absent_of_hasStream stream)
  | abort index => cases moves; exact arrived
  | manage timeout => cases moves <;> exact arrived

/-- The shutdown passes a worker that has left, or tells it to. -/
theorem told_of_step {label : Label}
    (told : ∀ worker, worker < state.manager.told config.numWorkers →
      (state.workers worker).Leaving)
    (stepped : Server.step config state label = some next) :
    ∀ worker, worker < next.manager.told config.numWorkers → (next.workers worker).Leaving := by
  have turns := turn_of_step stepped
  intro worker passed
  by_cases before : worker < state.manager.told config.numWorkers
  · exact (turns worker).leaving (told worker before)
  · cases moves_of_step stepped with
    | beginShutdown | drain | cancel => exact absurd passed (Nat.not_lt_zero _)
    | skip timeout index at_phase known down =>
        rw [at_phase] at before
        have isIndex : worker = index := by
          simp only [ManagerPhase.told] at passed before
          omega
        exact Or.inl (isIndex ▸ down)
    | notify timeout index at_phase known up room =>
        rw [at_phase] at before
        have isIndex : worker = index := by
          simp only [ManagerPhase.told] at passed before
          omega
        subst isIndex
        apply Or.inr
        apply Or.inr
        simp [State.setWorker]
    | finishShutdown timeout index at_phase all =>
        rw [at_phase] at before
        simp only [ManagerPhase.told] at passed before
        omega
    | allocationPanic | stop | indexPanic =>
        rw [dropInbox_eq] at passed
        exact absurd passed before
    | _ => exact absurd passed before

theorem Wired.short (wired : Wired config state) (worker : Nat) :
    (state.workers worker).inbox.length ≤ inboxCapacity :=
  Nat.le_trans (Nat.le_add_right _ _) (wired.permitted.short worker)

theorem Wired.step (checked : config.Checked) {label : Label} (wired : Wired config state)
    (stepped : Server.step config state label = some next) : Wired config next where
  absent := absent_of_step wired.absent stepped
  arrived := arrived_of_step wired.arrived stepped
  permitted := wired.permitted.step wired.absent stepped
  named := wired.named.step (wired.absent _ (Nat.le_refl _)) stepped
  owned := wired.owned.step_of_named checked wired.short
    (fun worker request member => (wired.named worker request (Or.inl member)).agrees) stepped
  told := told_of_step wired.told stepped

/-- Every run keeps the wiring. -/
theorem Wired.run (checked : config.Checked) {labels : List Label}
    (ran : Transition.run (Server.step config) (initial config) labels = some state) :
    Wired config state :=
  Transition.run_invariant_always (Wired config)
    (fun _ _ _ wired stepped => wired.step checked stepped) (wired_initial config) ran

end Whole

end Ferroid.Server
