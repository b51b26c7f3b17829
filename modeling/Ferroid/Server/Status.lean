import Ferroid.Generator.Blocking
import Ferroid.Server.Shutdown
import Ferroid.Server.Streaming

/-!
Contract: what the server tells a client that it does not serve, and why.

Owns the statuses that errors become, what has to be true of the server when it reports
an error, and what follows over every run, whatever clients, workers and a shutdown do:
a stream is chunks and then at most one error, and every status that reaches a client
names its true cause.

Does not own how many IDs come before an error (`Server.Invariant`).
-/

namespace Ferroid.Server

open Ferroid.Generator
open Ferroid.Library

/-! ## Statuses -/

/-- The codes of `tonic::Status` that errors become. -/
inductive Code where
  | cancelled
  | invalidArgument
  | internal
  | unavailable
deriving DecidableEq, Repr

structure Status where
  code : Code
  message : String
deriving DecidableEq, Repr

/-- `ferroid_tonic_core::Error`. -/
inductive Error where
  | channelError (context : String)
  | idGeneration (error : Infallible)
  | requestCancelled
  | invalidRequest (reason : String)
  | serviceShutdown

/-- `From<Error> for Status`. -/
def Error.toStatus : Error → Status
  | .channelError context => ⟨.internal, s!"Channel error: {context}"⟩
  | .idGeneration error => nomatch error
  | .requestCancelled => ⟨.cancelled, "Request was cancelled"⟩
  | .invalidRequest reason => ⟨.invalidArgument, reason⟩
  | .serviceShutdown => ⟨.unavailable, "Service is shutting down"⟩

/-- The error that `send_to_next_worker` returns. -/
def DispatchError.toError : DispatchError → Error
  | .serviceShutdown => .serviceShutdown
  | .channelError worker => .channelError s!"Worker {worker} channel closed"

/-- The error that `stream_ids` returns. -/
def RequestError.toError : RequestError → Error
  | .serviceShutdown => .serviceShutdown
  | .zeroCount => .invalidRequest "Count must be greater than 0"
  | .tooMany count maxAllowedIds =>
      .invalidRequest s!"Count {count} exceeds maximum allowed ({maxAllowedIds})"

/-! ## Causes -/

/-- What is true of the server when it refuses a request for that many IDs. -/
def RequestError.Caused (config : ServerConfig) (state : State) (count : Nat) :
    RequestError → Prop
  | .serviceShutdown => state.shutdown = true
  | .zeroCount => count = 0
  | .tooMany asked maxAllowedIds =>
      asked = count ∧ maxAllowedIds = config.maxAllowedIds ∧ config.maxAllowedIds < count

/-- What is true of the server when it cannot dispatch a request. -/
def DispatchError.Caused (config : ServerConfig) (state : State) : DispatchError → Prop
  | .serviceShutdown => state.cancelled = true
  | .channelError worker => worker < config.numWorkers ∧ (state.workers worker).isDown = true

/-- Chunks, then at most one error, and that error was caused. -/
def WellEnded (Caused : DispatchError → Prop) : List Item → Prop
  | [] => True
  | .chunk _ :: rest => WellEnded Caused rest
  | [.error error] => Caused error
  | .error _ :: _ :: _ => False

section Endings

variable {Caused : DispatchError → Prop} {items : List Item}

theorem WellEnded.of_chunks (noError : ∀ error, Item.error error ∉ items) :
    WellEnded Caused items := by
  induction items with
  | nil => trivial
  | cons item rest inductionHypothesis =>
      cases item with
      | chunk packedIds =>
          exact inductionHypothesis fun error member =>
            noError error (List.mem_cons_of_mem _ member)
      | error error => exact absurd List.mem_cons_self (noError error)

/-- An error is put after the chunks. -/
theorem WellEnded.append_error (noError : ∀ error, Item.error error ∉ items)
    {last : DispatchError} (caused : Caused last) :
    WellEnded Caused (items ++ [.error last]) := by
  induction items with
  | nil => exact caused
  | cons item rest inductionHypothesis =>
      cases item with
      | chunk packedIds =>
          exact inductionHypothesis fun error member =>
            noError error (List.mem_cons_of_mem _ member)
      | error error => exact absurd List.mem_cons_self (noError error)

/-- A client that has not taken everything has taken something of that kind. -/
theorem WellEnded.front {front back : List Item} (ended : WellEnded Caused (front ++ back)) :
    WellEnded Caused front := by
  induction front with
  | nil => trivial
  | cons item rest inductionHypothesis =>
      cases item with
      | chunk packedIds => exact inductionHypothesis ended
      | error error =>
          cases rest with
          | nil =>
              cases back with
              | nil => exact ended
              | cons => exact ended.elim
          | cons => exact ended.elim

theorem WellEnded.mono {Later : DispatchError → Prop}
    (later : ∀ error, Caused error → Later error) (ended : WellEnded Caused items) :
    WellEnded Later items := by
  induction items with
  | nil => trivial
  | cons item rest inductionHypothesis =>
      cases item with
      | chunk packedIds => exact inductionHypothesis ended
      | error error =>
          cases rest with
          | nil => exact later error ended
          | cons => exact ended.elim

end Endings

/-- What a feed task has read of the server. -/
def Stage.Caused (config : ServerConfig) (state : State) : Stage → Prop
  | .sending worker _ | .pushing worker _ => worker < config.numWorkers
  | .failing error => error.Caused config state
  | .top | .checking _ | .picking _ | .receiving _ | .forwarding _ _ => True

/-- What a client has been told so far, phase by phase. -/
def Call.Told (config : ServerConfig) (state : State) (call : Call) : Prop :=
  match call.phase with
  | .absent | .arrived | .checked => call.received = [] ∧ call.resp = []
  | .rejected error => error.Caused config state call.count
  | .counted | .panicked => call.InRange config ∧ call.received = [] ∧ call.resp = []
  | .feeding _ stage =>
      call.InRange config ∧ (∀ error, Item.error error ∉ call.received ++ call.resp) ∧
        stage.Caused config state
  | .returned | .done =>
      call.InRange config ∧
        WellEnded (DispatchError.Caused config state) (call.received ++ call.resp)

/-- A worker stops only because it was told to. -/
structure Worker.Excused (cancelled : Bool) (worker : Worker) : Prop where
  told : .shutdown ∈ worker.inbox → cancelled = true
  stopping : worker.phase = .stopping → cancelled = true
  stopped : worker.phase = .stopped → cancelled = true

/-- The shutdown has cancelled the token. -/
def ManagerPhase.hasCancelled : ManagerPhase → Bool
  | .notifying _ | .finished => true
  | .idle | .draining | .cancelling => false

structure Told (config : ServerConfig) (state : State) : Prop where
  calls : ∀ index, (state.calls index).Told config state
  workers : ∀ worker, (state.workers worker).Excused state.cancelled
  manager : state.manager.hasCancelled = true → state.cancelled = true

/-! ## What stays true -/

/-- The flags stay set, and workers that are down stay down. -/
structure Onward (state next : State) : Prop where
  shutdown : state.shutdown = true → next.shutdown = true
  cancelled : state.cancelled = true → next.cancelled = true
  down : ∀ worker, (state.workers worker).isDown = true → (next.workers worker).isDown = true

section Onwards

variable {config : ServerConfig} {state next : State}

theorem onward_of_step {label : Label} (stepped : Server.step config state label = some next) :
    Onward state next := by
  have flags : (state.shutdown = true → next.shutdown = true) ∧
      (state.cancelled = true → next.cancelled = true) := by
    have moves := moves_of_step stepped
    cases label with
    | work worker now =>
        obtain ⟨shutdown, cancelled, _, _⟩ := moves.work_frame
        exact ⟨fun set => shutdown.trans set, fun set => cancelled.trans set⟩
    | manage timeout =>
        cases moves with
        | beginShutdown => exact ⟨fun _ => rfl, id⟩
        | cancel => exact ⟨id, fun _ => rfl⟩
        | drain | skip | notify | finishShutdown => exact ⟨id, id⟩
    | _ => cases moves <;> exact ⟨id, id⟩
  exact ⟨flags.1, flags.2, fun worker => (turn_of_step stepped worker).down⟩

theorem RequestError.Caused.onward (onward : Onward state next) {count : Nat}
    {error : RequestError} (caused : error.Caused config state count) :
    error.Caused config next count := by
  cases error with
  | serviceShutdown => exact onward.shutdown caused
  | zeroCount => exact caused
  | tooMany => exact caused

theorem DispatchError.Caused.onward (onward : Onward state next) {error : DispatchError}
    (caused : error.Caused config state) : error.Caused config next := by
  cases error with
  | serviceShutdown => exact onward.cancelled caused
  | channelError worker => exact ⟨caused.1, onward.down worker caused.2⟩

/-- What a client was told stays true. -/
theorem Call.Told.onward (onward : Onward state next) {call : Call}
    (told : call.Told config state) : call.Told config next := by
  unfold Call.Told at told ⊢
  split at told
  · exact told
  · exact told
  · exact told
  · exact told.onward onward
  · exact told
  · exact told
  · next remaining stage at_phase =>
      refine ⟨told.1, told.2.1, ?_⟩
      cases stage with
      | failing error => exact told.2.2.onward onward
      | _ => exact told.2.2
  · exact ⟨told.1, told.2.mono fun _ caused => caused.onward onward⟩
  · exact ⟨told.1, told.2.mono fun _ caused => caused.onward onward⟩

end Onwards

/-! ## Steps -/

section Steps

variable {config : ServerConfig} {state next : State}

theorem CallMoves.told (checked : config.Checked) {call after : Call} {inflight : BitVec 64}
    {nextWorker : Nat} (moves : CallMoves config state call after inflight nextWorker)
    (told : call.Told config state) : after.Told config state := by
  cases moves with
  | refuse at_phase down => exact down
  | check at_phase up =>
      simp only [Call.Told, at_phase] at told
      exact told
  | zero at_phase none => exact none
  | tooMany at_phase some many => exact ⟨rfl, rfl, many⟩
  | count at_phase some allowed =>
      simp only [Call.Told, at_phase] at told
      exact ⟨⟨Nat.pos_of_ne_zero some, allowed⟩, told⟩
  | spawn at_phase capacity =>
      simp only [Call.Told, at_phase] at told
      obtain ⟨inRange, received, resp⟩ := told
      refine ⟨inRange, fun error => ?_, trivial⟩
      rw [received, resp]
      exact List.not_mem_nil
  | burst at_phase capacity =>
      simp only [Call.Told, at_phase] at told
      exact told
  | cut remaining at_phase more | proceed remaining chunkSize at_phase running
  | take remaining channel chunk queue at_phase waiting
  | drained remaining channel at_phase empty dropped =>
      simp only [Call.Told, at_phase] at told
      exact ⟨told.1, told.2.1, trivial⟩
  | pick remaining chunkSize at_phase =>
      simp only [Call.Told, at_phase] at told
      exact ⟨told.1, told.2.1, Nat.mod_lt _ checked.numWorkers_pos⟩
  | cancelled remaining chunkSize at_phase cancelled =>
      simp only [Call.Told, at_phase] at told
      exact ⟨told.1, told.2.1, cancelled⟩
  | down remaining worker chunkSize at_phase down =>
      simp only [Call.Told, at_phase] at told
      exact ⟨told.1, told.2.1, told.2.2, down⟩
  | forward remaining channel chunk at_phase connected room =>
      simp only [Call.Told, at_phase] at told
      refine ⟨told.1, fun error member => ?_, trivial⟩
      rw [← List.append_assoc] at member
      rcases List.mem_append.mp member with earlier | last
      · exact told.2.1 error earlier
      · cases List.mem_singleton.mp last
  | fail remaining error at_phase connected room =>
      simp only [Call.Told, at_phase] at told
      refine ⟨told.1, ?_⟩
      rw [← List.append_assoc]
      exact WellEnded.append_error told.2.1 told.2.2
  | complete at_phase =>
      simp only [Call.Told, at_phase] at told
      exact ⟨told.1, WellEnded.of_chunks told.2.1⟩
  | giveUp remaining stage at_phase sending gone =>
      simp only [Call.Told, at_phase] at told
      exact ⟨told.1, WellEnded.of_chunks told.2.1⟩
  | leave at_phase =>
      simp only [Call.Told, at_phase] at told
      exact told

theorem Call.Told.mapChannel {call : Call} (told : call.Told config state) (number : Nat)
    (change : ChunkChannel → ChunkChannel) : (call.mapChannel number change).Told config state := by
  rcases call.mapChannel_cases number change with
    ⟨_, same⟩ | ⟨remaining, channel, _, at_phase, mapped⟩ |
      ⟨remaining, channel, chunk, _, at_phase, mapped⟩
  · rwa [same]
  · simp only [Call.Told, at_phase] at told
    rw [mapped]
    exact ⟨told.1, told.2.1, trivial⟩
  · simp only [Call.Told, at_phase] at told
    rw [mapped]
    exact ⟨told.1, told.2.1, trivial⟩

/-- The client takes an item: what it was told does not change. -/
theorem Call.Told.receive {call : Call} (told : call.Told config state) {item : Item}
    {resp : List Item} (waiting : call.resp = item :: resp) :
    ({ call with resp := resp, received := call.received ++ [item] } : Call).Told config state := by
  have items : call.received ++ [item] ++ resp = call.received ++ call.resp := by
    rw [waiting, List.append_assoc, List.singleton_append]
  have some : ¬ (call.received = [] ∧ call.resp = []) := by
    rw [waiting]
    exact fun none => List.cons_ne_nil _ _ none.2
  unfold Call.Told at told ⊢
  simp only [items]
  split at told
  · exact absurd told some
  · exact absurd told some
  · exact absurd told some
  · exact told
  · exact absurd told.2 some
  · exact absurd told.2 some
  · exact told
  · exact told
  · exact told

/-- The client goes: it keeps what it has taken. -/
theorem Call.Told.disconnect {call : Call} (told : call.Told config state) :
    ({ call with connected := false, resp := [] } : Call).Told config state := by
  unfold Call.Told at told ⊢
  simp only [List.append_nil]
  split at told
  · exact ⟨told.1, trivial⟩
  · exact ⟨told.1, trivial⟩
  · exact ⟨told.1, trivial⟩
  · exact told
  · exact ⟨told.1, told.2.1, trivial⟩
  · exact ⟨told.1, told.2.1, trivial⟩
  · exact ⟨told.1, fun error member => told.2.1 error (List.mem_append_left _ member), told.2.2⟩
  · exact ⟨told.1, told.2.front⟩
  · exact ⟨told.1, told.2.front⟩

/-- One call changes, and the rest of the server goes on. -/
theorem Told.updateCall (told : Told config state) (onward : Onward state next) {index : Nat}
    {call : Call} (calls : next.calls = Function.update state.calls index call)
    (changed : call.Told config state) : ∀ other, (next.calls other).Told config next := by
  rw [calls, Function.forall_update_iff state.calls fun _ call => call.Told config next]
  exact ⟨changed.onward onward, fun other _ => (told.calls other).onward onward⟩

/-- A worker that goes on, and has no new message. -/
theorem Worker.Excused.goesOn {cancelled : Bool} {worker after : Worker}
    (excused : worker.Excused cancelled) (inbox : ∀ work ∈ after.inbox, work ∈ worker.inbox)
    (running : after.phase ≠ .stopping ∧ after.phase ≠ .stopped) : after.Excused cancelled where
  told member := excused.told (inbox _ member)
  stopping stops := absurd stops running.1
  stopped stops := absurd stops running.2

theorem WorkMoves.excused {now : ServerLayout.Ty} {worker after : Worker} {cancelled : Bool}
    (moves : WorkMoves config state now worker after) (excused : worker.Excused cancelled) :
    after.Excused cancelled := by
  cases moves with
  | start at_phase fits => exact excused.goesOn (fun _ => id) (by simp)
  | takeShutdown inbox at_phase waiting =>
      have told : cancelled = true := by
        apply excused.told
        rw [waiting]
        exact List.mem_cons_self
      exact ⟨fun _ => told, fun _ => told, fun _ => told⟩
  | pause job at_phase => exact excused.goesOn (fun _ => id) (by simp [at_phase])
  | write | rest | full => exact excused.goesOn (fun _ => id) (by simp)

/-- One worker changes. -/
theorem Told.updateWorker (told : Told config state) {index : Nat} {worker : Worker}
    (changed : worker.Excused state.cancelled) :
    ∀ other, (Function.update state.workers index worker other).Excused state.cancelled := by
  rw [Function.forall_update_iff state.workers fun _ worker => worker.Excused state.cancelled]
  exact ⟨changed, fun other _ => told.workers other⟩

theorem Moves.work_excused {worker : Nat} {now : ServerLayout.Ty} (told : Told config state)
    (moves : Moves config state (.work worker now) next) :
    ∀ other, (next.workers other).Excused state.cancelled := by
  have excused := told.workers worker
  cases moves with
  | work _ _ after known moves => exact told.updateWorker (moves.excused excused)
  | allocationPanic | indexPanic =>
      rw [dropInbox_eq]
      exact told.updateWorker (excused.goesOn (by simp) (by simp))
  | stop _ _ known at_phase =>
      rw [dropInbox_eq]
      have cancelled := excused.stopping at_phase
      exact told.updateWorker ⟨fun _ => cancelled, fun _ => cancelled, fun _ => cancelled⟩
  | takeStream _ _ request inbox known at_phase waiting =>
      apply told.updateWorker
      refine excused.goesOn (fun work member => ?_) (by simp)
      rw [waiting]
      exact List.mem_cons_of_mem _ member
  | finish | pushFull | pushRest =>
      exact told.updateWorker (excused.goesOn (fun _ => id) (by simp))

theorem told_initial (config : ServerConfig) : Told config (initial config) where
  calls _ := ⟨rfl, rfl⟩
  workers _ := ⟨by simp [initial], by simp [initial], by simp [initial]⟩
  manager := by simp [initial, ManagerPhase.hasCancelled]

theorem Told.step (checked : config.Checked) {label : Label} (told : Told config state)
    (stepped : Server.step config state label = some next) : Told config next := by
  have onward := onward_of_step stepped
  have moves := moves_of_step stepped
  cases label with
  | work worker now =>
      obtain ⟨_, cancelled, manager, _⟩ := moves.work_frame
      refine ⟨fun index => ?_, ?_, ?_⟩
      · have kept := moves.work_calls (fun _ number change told => told.mapChannel number change)
          (told.calls index)
        exact kept.onward onward
      · rw [cancelled]
        exact moves.work_excused told
      · rw [cancelled, manager]
        exact told.manager
  | arrive count =>
      cases moves with
      | arrive =>
          exact ⟨told.updateCall onward rfl ⟨rfl, rfl⟩, told.workers, told.manager⟩
  | call index =>
      cases moves with
      | call _ after inflight nextWorker moves =>
          exact ⟨told.updateCall onward rfl (moves.told checked (told.calls index)),
            told.workers, told.manager⟩
      | reserve _ remaining worker chunkSize at_phase =>
          have before := told.calls index
          have excused := told.workers worker
          simp only [Call.Told, at_phase] at before
          exact ⟨told.updateCall onward rfl before,
            told.updateWorker ⟨excused.told, excused.stopping, excused.stopped⟩, told.manager⟩
      | send _ remaining worker chunkSize at_phase =>
          refine ⟨told.updateCall onward rfl ?_, ?_, told.manager⟩
          · have before := told.calls index
            simp only [Call.Told, at_phase] at before
            exact ⟨before.1, before.2.1, trivial⟩
          · have excused := told.workers worker
            refine told.updateWorker ⟨fun member => ?_, excused.stopping, excused.stopped⟩
            exact excused.told (by simpa using member)
  | receive index =>
      cases moves with
      | receive _ item resp stream connected waiting =>
          exact ⟨told.updateCall onward rfl ((told.calls index).receive waiting), told.workers,
            told.manager⟩
  | disconnect index =>
      cases moves with
      | disconnect _ stream connected =>
          exact ⟨told.updateCall onward rfl (told.calls index).disconnect, told.workers,
            told.manager⟩
  | abort worker =>
      cases moves with
      | abort =>
          exact ⟨fun index => (told.calls index).onward onward, told.workers, told.manager⟩
  | manage timeout =>
      have calls : ∀ index, (state.calls index).Told config next := fun index =>
        (told.calls index).onward onward
      cases moves with
      | beginShutdown => exact ⟨calls, told.workers, fun cancelled => nomatch cancelled⟩
      | drain => exact ⟨calls, told.workers, fun cancelled => nomatch cancelled⟩
      | cancel =>
          exact ⟨calls, fun _ => ⟨fun _ => rfl, fun _ => rfl, fun _ => rfl⟩, fun _ => rfl⟩
      | skip _ index at_phase | finishShutdown _ index at_phase =>
          refine ⟨calls, told.workers, fun _ => told.manager ?_⟩
          rw [at_phase]
          rfl
      | notify _ index at_phase known up room =>
          have cancelled : state.cancelled = true := by
            apply told.manager
            rw [at_phase]
            rfl
          refine ⟨calls, ?_, fun _ => cancelled⟩
          exact told.updateWorker ⟨fun _ => cancelled, fun _ => cancelled, fun _ => cancelled⟩

theorem Told.run (checked : config.Checked) {labels : List Label}
    (ran : Transition.run (Server.step config) (initial config) labels = some state) :
    Told config state :=
  Transition.run_invariant_always (Told config)
    (fun _ _ _ told stepped => told.step checked stepped) (told_initial config) ran

end Steps

/-! ## Clients -/

/-- The status of a refused request, with its cause. -/
inductive Refusal (config : ServerConfig) (state : State) (count : Nat) : Status → Prop where
  | shuttingDown (flag : state.shutdown = true) :
      Refusal config state count ⟨.unavailable, "Service is shutting down"⟩
  | zero (none : count = 0) :
      Refusal config state count ⟨.invalidArgument, "Count must be greater than 0"⟩
  | tooMany (many : config.maxAllowedIds < count) :
      Refusal config state count
        ⟨.invalidArgument, s!"Count {count} exceeds maximum allowed ({config.maxAllowedIds})"⟩

/-- The status at the end of a stream, with its cause. -/
inductive Failure (config : ServerConfig) (state : State) : Status → Prop where
  | shuttingDown (cancelled : state.cancelled = true) :
      Failure config state ⟨.unavailable, "Service is shutting down"⟩
  | workerGone (worker : Nat) (known : worker < config.numWorkers)
      (gone : (state.workers worker).phase = .panicked ∨
        (state.workers worker).phase = .stopped ∧ state.cancelled = true) :
      Failure config state ⟨.internal, s!"Channel error: Worker {worker} channel closed"⟩

section Clients

variable {config : ServerConfig} {state : State}

theorem RequestError.Caused.refusal {count : Nat} {error : RequestError}
    (caused : error.Caused config state count) :
    Refusal config state count error.toError.toStatus := by
  cases error with
  | serviceShutdown => exact .shuttingDown caused
  | zeroCount => exact .zero caused
  | tooMany asked maxAllowedIds =>
      obtain ⟨rfl, rfl, many⟩ := caused
      exact .tooMany many

theorem DispatchError.toStatus_channelError (worker : Nat) :
    (DispatchError.channelError worker).toError.toStatus =
      ⟨.internal, s!"Channel error: Worker {worker} channel closed"⟩ := by
  have joined : ∀ number : String, "Channel error: " ++ ("Worker " ++ number ++ " channel closed") =
      "Channel error: Worker " ++ number ++ " channel closed" := by
    intro number
    rw [← String.append_assoc, ← String.append_assoc]
    rfl
  exact congrArg (Status.mk .internal) (joined (toString worker))

theorem DispatchError.Caused.failure (told : Told config state) {error : DispatchError}
    (caused : error.Caused config state) : Failure config state error.toError.toStatus := by
  cases error with
  | serviceShutdown => exact .shuttingDown caused
  | channelError worker =>
      rw [toStatus_channelError]
      apply Failure.workerGone worker caused.1
      have down := caused.2
      unfold Worker.isDown at down
      split at down
      · next at_phase => exact Or.inr ⟨at_phase, (told.workers worker).stopped at_phase⟩
      · next at_phase => exact Or.inl at_phase
      · cases down

end Clients

/-- Whatever happens, a client is told the truth. A request is refused with a status that
names its cause; a stream is opened for an admissible count only, and carries chunks and
then at most one error, whose status names its cause: the server is shutting down, or the
named worker has panicked or was stopped by a shutdown. -/
theorem clients_told_the_cause (config : ServerConfig) (accepted : config.Accepted)
    (labels : List Label) (state : State)
    (ran : Transition.run (step config) (initial config) labels = some state) (index : Nat) :
    (∀ error, (state.calls index).phase = .rejected error →
        Refusal config state (state.calls index).count error.toError.toStatus) ∧
      ((state.calls index).hasStream = true →
        (state.calls index).InRange config ∧
        WellEnded (fun error => Failure config state error.toError.toStatus)
          ((state.calls index).received ++ (state.calls index).resp)) := by
  have told := Told.run accepted.checked ran
  have toldCall := told.calls index
  constructor
  · intro error at_phase
    simp only [Call.Told, at_phase] at toldCall
    exact toldCall.refusal
  · intro stream
    cases at_phase : (state.calls index).phase with
    | feeding remaining stage =>
        simp only [Call.Told, at_phase] at toldCall
        exact ⟨toldCall.1, WellEnded.of_chunks toldCall.2.1⟩
    | returned | done =>
        simp only [Call.Told, at_phase] at toldCall
        exact ⟨toldCall.1, toldCall.2.mono fun _ caused => caused.failure told⟩
    | _ => simp [Call.hasStream, at_phase] at stream

/-- A stream of two IDs that a shutdown interrupts gets a chunk and then the reason. -/
theorem clients_told_the_cause_interrupted :
    ∃ state, Transition.run (step (nodeAt 0)) (initial (nodeAt 0)) interruptedRun = some state ∧
      (state.calls 0).received.getLast? = some (.error .serviceShutdown) ∧
      WellEnded (fun error => Failure (nodeAt 0) state error.toError.toStatus)
        ((state.calls 0).received ++ (state.calls 0).resp) := by
  have observed : (Transition.run (step (nodeAt 0)) (initial (nodeAt 0)) interruptedRun).map
      (fun state => ((state.calls 0).hasStream, (state.calls 0).received.getLast?)) =
        some (true, some (.error .serviceShutdown)) := by
    decide +kernel
  obtain ⟨state, ran, seen⟩ := Option.map_eq_some_iff.mp observed
  simp only [Prod.mk.injEq] at seen
  have told := clients_told_the_cause (nodeAt 0) nodeAt_zero_accepted interruptedRun state ran 0
  exact ⟨state, ran, seen.2, (told.2 seen.1).2⟩

end Ferroid.Server
