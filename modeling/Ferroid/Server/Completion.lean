import Ferroid.Server.Admission
import Ferroid.Server.Progress
import Ferroid.Server.Weight
import Ferroid.Server.Wiring

/-!
Contract: the server does a bounded amount of work and comes to rest.

Owns what holds of every run and every schedule, also of those in which the shutdown
loses requests or a worker panics: how many steps the server takes for the requests it
gets, and that a server in which nothing can move has shut down, up to streams that hang
on a worker that is gone.

Does not own what clients have received by then (`Server.Shutdown`).
-/

namespace Ferroid.Server

open Ferroid.Id
open Ferroid.Generator
open Ferroid.Library

/-! ## Work -/

/-- A step that does work: no arrival, no poll that gets no ID, and not the end of the
process. -/
def Works (state : State) : Label → Prop
  | .arrive _ | .abort _ => False
  | .work index now => ¬ (state.workers index).Stalls now
  | .call _ | .receive _ | .disconnect _ | .manage _ => True

instance (state : State) : DecidablePred (Works state)
  | .arrive _ | .abort _ => isFalse id
  | .work index now => inferInstanceAs (Decidable (¬ (state.workers index).Stalls now))
  | .call _ | .receive _ | .disconnect _ | .manage _ => isTrue trivial

/-- The steps of a run that do work. -/
def workingSteps (config : ServerConfig) (labels : List Label) : Nat :=
  Transition.totalCost (step config) (fun state label => if Works state label then 1 else 0)
    (initial config) labels

/-- What the arrival of a request allows the server to do. -/
def allowance : Label → Nat
  | .arrive count => 19 * count + 6
  | _ => 0

section Work

variable {config : ServerConfig} {state next : State}

theorem Wired.present (wired : Wired config state) (index : Nat)
    (present : state.calls index ≠ Call.absent) : index < state.arrivals := by
  by_contra beyond
  exact present (wired.absent index (Nat.le_of_not_lt beyond))

/-- A worker that stalls has as much to do as before. -/
theorem weight_of_stalls {index : Nat} {now : ServerLayout.Ty}
    (stepped : step config state (.work index now) = some next)
    (stalls : (state.workers index).Stalls now) : weight config next = weight config state := by
  unfold Worker.Stalls at stalls
  split at stalls
  · next job at_phase =>
      obtain ⟨generating, more, yieldFor, pending⟩ := stalls
      obtain ⟨_, stepped⟩ := step_eq_some.mp stepped
      simp only [taskStep, workStep, at_phase, jobStep, generating, more, if_true] at stepped
      split at stepped
      · next known =>
          split at stepped
          · next generator id polled =>
              rw [polled] at pending
              cases pending
          · next generator wait polled =>
              cases stepped
              have changed : ∀ after : Worker, workerWeight after =
                  workerWeight (state.workers index) →
                    total workerWeight config.numWorkers (Function.update state.workers index
                      after) = total workerWeight config.numWorkers state.workers := by
                intro after same
                have updated : total workerWeight config.numWorkers
                    (Function.update state.workers index after) +
                      workerWeight (state.workers index) =
                    total workerWeight config.numWorkers state.workers + workerWeight after :=
                  total_update_of_lt known
                omega
              simp only [weight, State.setWorker]
              rw [changed _ (by simp only [workerWeight, at_phase])]
      · cases stepped
  · exact stalls.elim

/-- A request that arrives adds its allowance. -/
theorem weight_of_arrive {count : Nat} (stepped : step config state (.arrive count) = some next) :
    weight config next = weight config state + allowance (.arrive count) := by
  cases moves_of_step stepped with
  | arrive _ bound =>
      have grown : total callWeight (state.arrivals + 1) (Function.update state.calls
          state.arrivals { Call.absent with count := count, phase := .arrived }) =
          total callWeight state.arrivals state.calls +
            callWeight { Call.absent with count := count, phase := .arrived } :=
        total_succ_update state.calls
      simp only [weight, State.setCall, allowance]
      rw [grown]
      simp only [callWeight, phaseWeight, feedWeight, Call.absent, List.length_nil,
        Bool.toNat_true]
      omega

/-- A step that does work leaves less to do. -/
theorem Wired.lighter (positive : 0 < config.idsPerChunk) (wired : Wired config state)
    {label : Label} (works : Works state label)
    (stepped : Server.step config state label = some next) :
    weight config next < weight config state := by
  apply weight_lt_of_present positive wired.present stepped
  · rintro count rfl
    exact works
  · rintro index rfl
    exact works
  · rintro index now rfl
    exact works

/-- Every step is paid for. -/
theorem Wired.pays (positive : 0 < config.idsPerChunk) (wired : Wired config state)
    {label : Label} (stepped : Server.step config state label = some next) :
    (if Works state label then 1 else 0) + weight config next ≤
      weight config state + allowance label := by
  by_cases works : Works state label
  · rw [if_pos works]
    have lighter := wired.lighter positive works stepped
    omega
  · rw [if_neg works]
    cases label with
    | arrive count =>
        rw [weight_of_arrive stepped]
        omega
    | work index now =>
        rw [weight_of_stalls stepped (not_not.mp works)]
        omega
    | abort index =>
        cases moves_of_step stepped with
        | abort => exact Nat.le_of_eq (Nat.zero_add _)
    | call | receive | disconnect | manage => exact absurd trivial works

/-- The server starts with its workers to start and to stop. -/
theorem weight_initial (config : ServerConfig) :
    weight config (initial config) = 5 * config.numWorkers + 4 := by
  have calls : total callWeight 0 (initial config).calls = 0 := rfl
  have workers : total workerWeight config.numWorkers (initial config).workers =
      config.numWorkers * 3 := by
    have each : (fun index => workerWeight ((initial config).workers index)) = fun _ => 3 := rfl
    rw [total_eq_sum, each, List.map_const', List.length_range, List.sum_replicate_nat]
  simp only [weight]
  rw [show (initial config).arrivals = 0 from rfl, calls, workers]
  simp only [initial, managerWeight]
  omega

end Work

/-- Whatever the clients ask for and however the tasks are scheduled, the server takes
at most 19 steps for each ID it is asked for, six more for each request, and a few for
each worker, besides polls that get no ID. -/
theorem work_linear_in_requests (config : ServerConfig) (accepted : config.Accepted)
    (positive : 1 ≤ config.idsPerChunk) (labels : List Label) (state : State)
    (ran : Transition.run (step config) (initial config) labels = some state) :
    workingSteps config labels + weight config state ≤
      5 * config.numWorkers + 4 + (labels.map allowance).sum := by
  rw [← weight_initial config]
  exact Transition.totalCost_le _ (weight config) allowance (Wired config)
    (fun _ _ _ wired stepped => wired.pays positive stepped)
    (fun _ _ _ wired stepped => wired.step accepted.checked stepped) (wired_initial config) ran

/-! ## Rest -/

/-- A call that is over, and read to its end by a client that stays. -/
def Call.AtRest (call : Call) : Prop :=
  match call.phase with
  | .done => call.connected = true → call.resp = []
  | .rejected _ | .panicked => True
  | _ => False

/-- Every task of the server has ended, but the feed tasks that hang on a worker that is
gone. -/
structure ShutDown (config : ServerConfig) (state : State) : Prop where
  manager : state.manager = .finished
  workers : ∀ worker, worker < config.numWorkers → (state.workers worker).isDown = true
  inboxes : ∀ worker, worker < config.numWorkers → ∀ work ∈ (state.workers worker).inbox,
    ∃ request, work = .stream request ∧ Stranded state request.call
  calls : ∀ index, index < state.arrivals → (state.calls index).AtRest ∨ Stranded state index

/-- Some step does work, and no client has to leave for it. -/
def CanMove (config : ServerConfig) (state : State) : Prop :=
  ∃ label next, Works state label ∧ (∀ index, label ≠ .disconnect index) ∧
    step config state label = some next

section Rest

variable {config : ServerConfig} {state : State} (alive : state.aborted = false)

include alive

theorem canMove_of_call (index : Nat) (moves : ∃ next, callStep config state index = some next) :
    CanMove config state := by
  obtain ⟨next, stepped⟩ := moves
  exact ⟨.call index, next, trivial, by simp, step_eq_some.mpr ⟨alive, stepped⟩⟩

theorem canMove_of_manage (timeout : Bool)
    (moves : ∃ next, manageStep config state timeout = some next) : CanMove config state := by
  obtain ⟨next, stepped⟩ := moves
  exact ⟨.manage timeout, next, trivial, by simp, step_eq_some.mpr ⟨alive, stepped⟩⟩

theorem canMove_of_receive {index : Nat} (stream : (state.calls index).hasStream = true)
    (connected : (state.calls index).connected = true)
    (queued : (state.calls index).resp ≠ []) : CanMove config state := by
  obtain ⟨item, resp, waiting⟩ := List.exists_cons_of_ne_nil queued
  have moves : ∃ next, receiveStep state index = some next := by
    simp only [receiveStep, stream, connected, Bool.and_self, if_true, waiting]
    exact ⟨_, rfl⟩
  obtain ⟨next, stepped⟩ := moves
  exact ⟨.receive index, next, trivial, by simp, step_eq_some.mpr ⟨alive, stepped⟩⟩

theorem canMove_of_work {index : Nat} {now : ServerLayout.Ty}
    (active : ¬ (state.workers index).Stalls now)
    (moves : ∃ next, workStep config state index now = some next) : CanMove config state := by
  obtain ⟨next, stepped⟩ := moves
  exact ⟨.work index now, next, active, by simp, step_eq_some.mpr ⟨alive, stepped⟩⟩

/-- A feed task with something for its client can pass it on, or the client can take
what is in the way. -/
theorem canMove_of_sending {index remaining : Nat} {stage : Stage}
    (buffer : 0 < config.streamBufferSize)
    (at_phase : (state.calls index).phase = .feeding remaining stage)
    (sending : (∃ channel chunk, stage = .forwarding channel chunk) ∨
      ∃ error, stage = .failing error) : CanMove config state := by
  have stream : (state.calls index).hasStream = true := by simp [Call.hasStream, at_phase]
  by_cases full : (state.calls index).connected = true ∧
      ¬ (state.calls index).resp.length < config.streamBufferSize
  · exact canMove_of_receive alive stream full.1 (resp_ne_nil buffer full.2)
  · apply canMove_of_call alive index
    rcases sending with ⟨channel, chunk, rfl⟩ | ⟨error, rfl⟩ <;>
    · simp only [callStep, at_phase, feedStep]
      split
      · exact ⟨_, rfl⟩
      · next stays =>
          have room : (state.calls index).resp.length < config.streamBufferSize := by
            by_contra noRoom
            exact full ⟨by simpa using stays, noRoom⟩
          rw [if_pos room]
          exact ⟨_, rfl⟩

/-- A channel with something in it is emptied by its feed task. -/
theorem canMove_of_queue {index number : Nat} {channel : ChunkChannel}
    (buffer : 0 < config.streamBufferSize)
    (found : (state.calls index).channel? number = some channel) (queued : channel.queue ≠ []) :
    CanMove config state := by
  obtain ⟨_, remaining, at_phase | ⟨chunk, at_phase⟩⟩ := channel?_eq_some.mp found
  · obtain ⟨chunk, queue, waiting⟩ := List.exists_cons_of_ne_nil queued
    apply canMove_of_call alive index
    simp only [callStep, at_phase, feedStep, waiting]
    exact ⟨_, rfl⟩
  · exact canMove_of_sending alive buffer at_phase (Or.inl ⟨channel, chunk, rfl⟩)

/-- A worker that sends a chunk can do so, or the feed task can make room. -/
theorem canMove_of_point {index : Nat} {job : Job} (buffer : 0 < config.streamBufferSize)
    (known : index < config.numWorkers) (at_phase : (state.workers index).phase = .handling job)
    {bytes : IdChunk} (sending : job.point = .sendingFull bytes ∨ job.point = .sendingRest bytes) :
    CanMove config state := by
  have active : ¬ (state.workers index).Stalls 0#_ := by
    rcases sending with sending | sending <;> simp [Worker.Stalls, at_phase, sending]
  by_cases full : state.isClosed job.request = false ∧
      ¬ state.queued job.request < chunkCapacity
  · obtain ⟨receives, noRoom⟩ := full
    cases found : (state.calls job.request.call).channel? job.request.channel with
    | none => simp [State.isClosed, found] at receives
    | some channel =>
        apply canMove_of_queue alive buffer found
        intro empty
        simp [State.queued, found, empty, chunkCapacity] at noRoom
  · apply canMove_of_work alive active
    rcases sending with sending | sending <;>
    · simp only [workStep, known, if_true, at_phase, jobStep, sending]
      split
      · exact ⟨_, rfl⟩
      · next alive =>
          have room : state.queued job.request < chunkCapacity := by
            by_contra noRoom
            exact full ⟨Bool.eq_false_iff.mpr alive, noRoom⟩
          rw [if_pos room]
          exact ⟨_, rfl⟩

/-- A worker that polls its generator gets an ID at some reading. -/
theorem canMove_of_generating {index : Nat} {job : Job} (known : index < config.numWorkers)
    (at_phase : (state.workers index).phase = .handling job)
    (generating : job.point = .generating)
    (fresh : ¬ (state.workers index).Starved) : CanMove config state := by
  have moves : ∀ now, ∃ next, workStep config state index now = some next := by
    intro now
    simp only [workStep, known, if_true, at_phase, jobStep, generating]
    split
    · split
      · split <;> exact ⟨_, rfl⟩
      · exact ⟨_, rfl⟩
    · split <;> exact ⟨_, rfl⟩
  simp only [Worker.Starved, not_forall] at fresh
  obtain ⟨now, _, active⟩ := fresh
  exact canMove_of_work alive active (moves now)

/-- A worker that is up and has something to do is no reason to stop. -/
theorem canMove_of_worker {index : Nat} (admitted : state.AdmittedBy config)
    (known : index < config.numWorkers) (up : (state.workers index).isDown = false)
    (busy : (state.workers index).phase = .waiting → (state.workers index).inbox ≠ [])
    (fresh : ¬ (state.workers index).Starved) : CanMove config state := by
  cases at_phase : (state.workers index).phase with
  | starting =>
      have active : ¬ (state.workers index).Stalls 0#_ := by simp [Worker.Stalls, at_phase]
      apply canMove_of_work alive active
      simp only [workStep, known, if_true, at_phase]
      split <;> exact ⟨_, rfl⟩
  | waiting =>
      have active : ¬ (state.workers index).Stalls 0#_ := by simp [Worker.Stalls, at_phase]
      apply canMove_of_work alive active
      simp only [workStep, known, if_true, at_phase]
      cases waiting : (state.workers index).inbox with
      | nil => exact absurd waiting (busy at_phase)
      | cons work inbox => cases work <;> exact ⟨_, rfl⟩
  | handling job =>
      have opens := (admitted.workers index).phase
      rw [at_phase] at opens
      have buffer : 0 < config.streamBufferSize := opens.2.1.opens.1
      cases at_point : job.point with
      | generating => exact canMove_of_generating alive known at_phase at_point fresh
      | checking =>
          have active : ¬ (state.workers index).Stalls 0#_ := by
            simp [Worker.Stalls, at_phase, at_point]
          apply canMove_of_work alive active
          simp only [workStep, known, if_true, at_phase, jobStep, at_point]
          split <;> exact ⟨_, rfl⟩
      | sendingFull bytes => exact canMove_of_point alive buffer known at_phase (Or.inl at_point)
      | sendingRest bytes => exact canMove_of_point alive buffer known at_phase (Or.inr at_point)
  | stopping =>
      have active : ¬ (state.workers index).Stalls 0#_ := by simp [Worker.Stalls, at_phase]
      apply canMove_of_work alive active
      simp only [workStep, known, if_true, at_phase]
      exact ⟨_, rfl⟩
  | stopped => simp [Worker.isDown, at_phase] at up
  | panicked => simp [Worker.isDown, at_phase] at up

/-- Whoever holds the sender that a feed task waits for is no reason to stop, unless it is
gone. -/
theorem canMove_of_owner (admitted : state.AdmittedBy config)
    {index : Nat} {channel : ChunkChannel} (owned : OwnedBy state.workers index channel)
    (known : channel.worker < config.numWorkers) (held : channel.sender ≠ .dropped)
    (reachable : channel.sender = .queued →
      .stream (channel.request index) ∈ (state.workers channel.worker).inbox →
        (state.workers channel.worker).isDown = false)
    (fresh : ¬ (state.workers channel.worker).Starved) : CanMove config state := by
  unfold OwnedBy at owned
  cases sender : channel.sender with
  | queued =>
      simp only [sender] at owned
      exact canMove_of_worker alive admitted known (reachable sender owned)
        (fun _ => List.ne_nil_of_mem owned) fresh
  | held =>
      simp only [sender] at owned
      obtain ⟨job, at_phase, _⟩ := owned
      have running := running_of_handling at_phase
      refine canMove_of_worker alive admitted known running.1 (fun waiting => ?_) fresh
      rw [at_phase] at waiting
      cases waiting
  | dropped => exact absurd sender held

/-- Who has a permit can push. -/
theorem canMove_of_push {index remaining worker chunkSize : Nat}
    (at_phase : (state.calls index).phase = .feeding remaining (.pushing worker chunkSize)) :
    CanMove config state := by
  apply canMove_of_call alive index
  simp only [callStep, at_phase, feedStep]
  exact ⟨_, rfl⟩

/-- An inbox without room has a worker that takes from it, or a call that pushes. -/
theorem canMove_of_full (wired : Wired config state) (admitted : state.AdmittedBy config)
    {worker : Nat} (known : worker < config.numWorkers)
    (up : (state.workers worker).isDown = false) (full : ¬ (state.workers worker).HasRoom)
    (fresh : ¬ (state.workers worker).Starved) : CanMove config state := by
  cases holders : (state.workers worker).permits with
  | nil =>
      refine canMove_of_worker alive admitted known up (fun _ empty => full ?_) fresh
      simp [Worker.HasRoom, empty, holders, inboxCapacity]
  | cons holder rest =>
      obtain ⟨_, _, pushing⟩ := (wired.permitted.holder worker holder).mp (by simp [holders])
      exact canMove_of_push alive pushing

/-- A feed task can move, or its worker or its client can. -/
theorem canMove_of_stage (wired : Wired config state) (admitted : state.AdmittedBy config)
    {index remaining : Nat} {stage : Stage}
    (at_phase : (state.calls index).phase = .feeding remaining stage)
    (reachable : ¬ Stranded state index)
    (fresh : ∀ worker, worker < config.numWorkers →
      ¬ (state.workers worker).Starved) : CanMove config state := by
  have here := wired.owned index
  simp only [CallOwned, at_phase] at here
  have opens := admitted.calls index
  rw [at_phase] at opens
  have buffer : 0 < config.streamBufferSize := opens.opens.1
  cases stage with
  | top | checking chunkSize =>
      apply canMove_of_call alive index
      simp only [callStep, at_phase, feedStep]
      split <;> exact ⟨_, rfl⟩
  | picking chunkSize =>
      apply canMove_of_call alive index
      simp only [callStep, at_phase, feedStep]
      exact ⟨_, rfl⟩
  | sending worker chunkSize =>
      by_cases full : (state.workers worker).isDown = false ∧ ¬ (state.workers worker).HasRoom
      · exact canMove_of_full alive wired admitted here full.1 full.2 (fresh worker here)
      · apply canMove_of_call alive index
        simp only [callStep, at_phase, feedStep]
        split
        · exact ⟨_, rfl⟩
        · next up =>
            have room : (state.workers worker).HasRoom := by
              by_contra noRoom
              exact full ⟨Bool.eq_false_iff.mpr up, noRoom⟩
            rw [if_pos room]
            exact ⟨_, rfl⟩
  | pushing worker chunkSize => exact canMove_of_push alive at_phase
  | receiving channel =>
      have found : (state.calls index).channel? channel.number = some channel :=
        channel?_eq_some.mpr ⟨rfl, remaining, Or.inl at_phase⟩
      by_cases queued : channel.queue = []
      · by_cases dropped : channel.sender = .dropped
        · apply canMove_of_call alive index
          simp only [callStep, at_phase, feedStep, queued, dropped, if_true]
          exact ⟨_, rfl⟩
        · refine canMove_of_owner alive admitted here.2 here.1 dropped
            (fun sender member => ?_) (fresh _ here.1)
          apply Bool.eq_false_iff.mpr
          intro down
          exact reachable ⟨remaining, channel, at_phase, queued, sender, down, member⟩
      · exact canMove_of_queue alive buffer found queued
  | forwarding channel chunk =>
      exact canMove_of_sending alive buffer at_phase (Or.inl ⟨channel, chunk, rfl⟩)
  | failing error => exact canMove_of_sending alive buffer at_phase (Or.inr ⟨error, rfl⟩)

/-- A call that is not over can move, or something it waits for can. -/
theorem canMove_of_restless (wired : Wired config state) (admitted : state.AdmittedBy config)
    {index : Nat} (known : index < state.arrivals) (restless : ¬ (state.calls index).AtRest)
    (reachable : ¬ Stranded state index) (fresh : ∀ worker, worker < config.numWorkers →
      ¬ (state.workers worker).Starved) : CanMove config state := by
  unfold Call.AtRest at restless
  cases at_phase : (state.calls index).phase with
  | absent => exact absurd at_phase (wired.arrived index known)
  | rejected error => simp [at_phase] at restless
  | panicked => simp [at_phase] at restless
  | arrived | counted =>
      apply canMove_of_call alive index
      simp only [callStep, at_phase]
      split <;> exact ⟨_, rfl⟩
  | checked =>
      apply canMove_of_call alive index
      simp only [callStep, at_phase]
      split
      · exact ⟨_, rfl⟩
      · split <;> exact ⟨_, rfl⟩
  | returned =>
      apply canMove_of_call alive index
      simp only [callStep, at_phase]
      exact ⟨_, rfl⟩
  | done =>
      simp only [at_phase, Classical.not_imp] at restless
      exact canMove_of_receive alive (by simp [Call.hasStream, at_phase]) restless.1 restless.2
  | feeding remaining stage =>
      exact canMove_of_stage alive wired admitted at_phase reachable fresh

/-- The shutdown goes on until it has told every worker. -/
theorem canMove_of_manager (wired : Wired config state) (admitted : state.AdmittedBy config)
    (unfinished : state.manager ≠ .finished)
    (fresh : ∀ worker, worker < config.numWorkers →
      ¬ (state.workers worker).Starved) : CanMove config state := by
  cases at_phase : state.manager with
  | idle | draining | cancelling =>
      apply canMove_of_manage alive true
      simp [manageStep, at_phase]
  | finished => exact absurd at_phase unfinished
  | notifying index =>
      by_cases full : index < config.numWorkers ∧ (state.workers index).isDown = false ∧
          ¬ (state.workers index).HasRoom
      · obtain ⟨known, up, noRoom⟩ := full
        exact canMove_of_full alive wired admitted known up noRoom (fresh index known)
      · apply canMove_of_manage alive true
        simp only [manageStep, at_phase]
        split
        · next known =>
            split
            · exact ⟨_, rfl⟩
            · next up =>
                have room : (state.workers index).HasRoom := by
                  by_contra noRoom
                  exact full ⟨known, Bool.eq_false_iff.mpr up, noRoom⟩
                rw [if_pos room]
                exact ⟨_, rfl⟩
        · exact ⟨_, rfl⟩

/-- A worker that was told to leave can leave. -/
theorem canMove_of_leaving (admitted : state.AdmittedBy config)
    {worker : Nat} (known : worker < config.numWorkers) (leaving : (state.workers worker).Leaving)
    (up : (state.workers worker).isDown = false)
    (fresh : ¬ (state.workers worker).Starved) : CanMove config state := by
  rcases leaving with down | stopping | told
  · rw [up] at down
    cases down
  · refine canMove_of_worker alive admitted known up (fun waiting => ?_) fresh
    rw [stopping] at waiting
    cases waiting
  · have some := List.ne_nil_of_mem told
    exact canMove_of_worker alive admitted known up (fun _ => some) fresh

/-- Where nothing can move, everything has ended or is stranded. -/
theorem shutDown_of_not_canMove (wired : Wired config state) (leaves : LeavesStranded state)
    (admitted : state.AdmittedBy config) (stuck : ¬ CanMove config state)
    (fresh : ∀ worker, worker < config.numWorkers →
      ¬ (state.workers worker).Starved) : ShutDown config state := by
  have finished : state.manager = .finished := by
    by_contra unfinished
    exact stuck (canMove_of_manager alive wired admitted unfinished fresh)
  have down : ∀ worker, worker < config.numWorkers → (state.workers worker).isDown = true := by
    intro worker known
    have leaving : (state.workers worker).Leaving := by
      apply wired.told
      rw [finished]
      exact known
    by_contra up
    exact stuck (canMove_of_leaving alive admitted known leaving (Bool.eq_false_iff.mpr up)
      (fresh worker known))
  refine ⟨finished, down, fun worker known => leaves worker (down worker known),
    fun index known => ?_⟩
  by_contra neither
  rw [not_or] at neither
  exact stuck (canMove_of_restless alive wired admitted known neither.1 neither.2 fresh)

end Rest

/-- One request is served, then the server is shut down. -/
def servedAndStoppedRun : List Label :=
  List.flatten [[.arrive 1], List.replicate 8 (.call 0), List.replicate 6 (.work 0 5#_),
    List.replicate 5 (.call 0), [.receive 0], List.replicate 6 (.manage true),
    List.replicate 2 (.work 0 5#_), List.replicate 3 (.work 1 5#_)]

theorem work_linear_in_requests_one_request :
    workingSteps nodeOfTwo servedAndStoppedRun = 31 ∧
      workingSteps nodeOfTwo servedAndStoppedRun ≤ 39 := by
  have observed : ((Transition.run (step nodeOfTwo) (initial nodeOfTwo) servedAndStoppedRun).map
      State.arrivals, workingSteps nodeOfTwo servedAndStoppedRun) = (some 1, 31) := by
    decide +kernel
  rw [Prod.mk.injEq] at observed
  obtain ⟨state, ran, _⟩ := Option.map_eq_some_iff.mp observed.1
  have bound := work_linear_in_requests nodeOfTwo nodeOfTwo_accepted (by decide)
    servedAndStoppedRun state ran
  have allowed : (servedAndStoppedRun.map allowance).sum = 25 := by decide +kernel
  have workers : nodeOfTwo.numWorkers = 2 := rfl
  exact ⟨observed.2, by omega⟩

/-- From every state the server can get into, by any schedule and with any losses on the
way: as long as the process runs and something has not ended, some task can do work without a
client having to leave, unless a worker waits for a generator at the end of its timestamps.
Work can only be done so often, so every schedule ends with a server that has shut down, except
for the streams that are stranded at a worker that is gone, and these stay so for ever. -/
theorem every_schedule_shuts_down (config : ServerConfig) (accepted : config.Accepted)
    (positive : 1 ≤ config.idsPerChunk) (labels : List Label) (state : State)
    (ran : Transition.run (step config) (initial config) labels = some state) :
    (∀ more final, Transition.Meets (step config) Works state more →
      Transition.run (step config) state more = some final →
      more.length + weight config final ≤ weight config state) ∧
      (state.aborted = true ∨ ShutDown config state ∨
        (∃ worker, worker < config.numWorkers ∧ (state.workers worker).Starved) ∨
        CanMove config state) ∧
      ∀ index, Stranded state index → ∀ more final,
        Transition.run (step config) state more = some final → Stranded final index := by
  have checked := accepted.checked
  have wired := Wired.run checked ran
  refine ⟨?_, ?_, fun index stranded more final continued =>
    stranded.run checked wired continued⟩
  · intro more final meets continued
    exact Transition.length_add_le (weight config) (Wired config)
      (fun _ _ _ wired works stepped => wired.lighter positive works stepped)
      (fun _ _ _ wired stepped => wired.step checked stepped) wired meets continued
  · cases alive : state.aborted with
    | true => exact Or.inl rfl
    | false =>
        apply Or.inr
        by_cases stuck : CanMove config state
        · exact Or.inr (Or.inr stuck)
        · by_cases starved : ∃ worker, worker < config.numWorkers ∧
              (state.workers worker).Starved
          · exact Or.inr (Or.inl starved)
          · apply Or.inl
            apply shutDown_of_not_canMove alive wired (LeavesStranded.run checked ran)
              (admittedBy_of_run ran) stuck
            intro worker known isStarved
            exact starved ⟨worker, known, isStarved⟩

/-- The request of a stream is pushed after its worker has dropped the receiver: the permit was
taken just before. -/
def latePushRun : List Label :=
  List.flatten [[.arrive 1], List.replicate 6 (.call 0), List.replicate 4 (.manage true),
    List.replicate 2 (.work 0 5#_), [.call 0, .work 0 5#_, .call 0, .manage true]]

/-- The stream hangs, whatever happens next. -/
theorem every_schedule_shuts_down_late_push :
    ∃ state, Transition.run (step (nodeAt 0)) (initial (nodeAt 0)) latePushRun = some state ∧
      Stranded state 0 ∧
      ∀ more final, Transition.run (step (nodeAt 0)) state more = some final →
        Stranded final 0 := by
  have observed : (Transition.run (step (nodeAt 0)) (initial (nodeAt 0)) latePushRun).map
      (fun state => ((state.calls 0).phase, (state.workers 0).phase, (state.workers 0).inbox)) =
        some (.feeding 0 (.receiving ⟨1, 0, 1, .queued, false, []⟩), .stopped,
          [.stream ⟨0, 1, 1⟩]) := by
    decide +kernel
  obtain ⟨state, ran, seen⟩ := Option.map_eq_some_iff.mp observed
  simp only [Prod.mk.injEq] at seen
  obtain ⟨phase, stopped, inbox⟩ := seen
  have stranded : Stranded state 0 :=
    ⟨0, ⟨1, 0, 1, .queued, false, []⟩, phase, rfl, rfl, by simp [Worker.isDown, stopped],
      by simp [inbox, ChunkChannel.request]⟩
  exact ⟨state, ran, stranded, (every_schedule_shuts_down (nodeAt 0) nodeAt_zero_accepted
    (by decide) latePushRun state ran).2.2 0 stranded⟩

end Ferroid.Server
