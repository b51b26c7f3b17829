import Ferroid.Server.Wiring

/-!
Contract: streams that hang on a worker that is gone.

A send to an inbox takes its permit before it pushes. A worker can drop its receiver in
between, and the request that is pushed then lies in an inbox that nobody reads, with the
sender that its feed task waits for.

Owns what such a stream is, that it stays one for ever, and that nothing else is ever left
in the inbox of a worker that is gone.

Does not own what becomes of the other streams.
-/

namespace Ferroid.Server

open Ferroid.Id
open Ferroid.Generator
open Ferroid.Library

/-- The stream waits for the answer to a request that lies in the inbox of a worker that is
gone: it was pushed after the receiver was dropped, and nobody will take it or drop it. -/
def Stranded (state : State) (index : Nat) : Prop :=
  ∃ remaining channel, (state.calls index).phase = .feeding remaining (.receiving channel) ∧
    channel.queue = [] ∧ channel.sender = .queued ∧
    (state.workers channel.worker).isDown = true ∧
    .stream (channel.request index) ∈ (state.workers channel.worker).inbox

section Untouched

variable {config : ServerConfig} {state next : State} {index : Nat}

/-- A request that names no open channel of a call does nothing to it. -/
theorem calls_mapChannel_of_closed {request : StreamRequest}
    (closed : request.call = index → (state.calls index).channel? request.channel = none)
    (change : ChunkChannel → ChunkChannel) :
    (state.mapChannel request change).calls index = state.calls index := by
  by_cases same : index = request.call
  · subst same
    simp only [State.mapChannel, State.setCall, Function.update_self]
    exact Call.mapChannel_closed (closed rfl) change
  · simp only [State.mapChannel, State.setCall, Function.update_of_ne same]

theorem calls_dropInbox_of_closed (inbox : List WorkRequest)
    (closed : ∀ request, .stream request ∈ inbox → request.call = index →
      (state.calls index).channel? request.channel = none) :
    (state.dropInbox inbox).calls index = state.calls index := by
  induction inbox generalizing state with
  | nil => rfl
  | cons work rest inductionHypothesis =>
      cases work with
      | shutdown =>
          exact inductionHypothesis fun request member => closed request (by simp [member])
      | stream request =>
          have same : (state.mapChannel request .drop).calls index = state.calls index :=
            calls_mapChannel_of_closed (closed request (by simp)) .drop
          refine Eq.trans (inductionHypothesis fun other member => ?_) same
          rw [same]
          exact closed other (by simp [member])

/-- A worker does nothing to a call of which it has no request with an open channel. -/
theorem Moves.work_untouched {worker : Nat} {now : ServerLayout.Ty}
    (moves : Moves config state (.work worker now) next)
    (closed : ∀ request, (state.workers worker).Has request → request.call = index →
      (state.calls index).channel? request.channel = none) :
    next.calls index = state.calls index := by
  have atWork : ∀ job, (state.workers worker).phase = .handling job →
      ∀ change, (state.mapChannel job.request change).calls index = state.calls index :=
    fun job at_phase change =>
      calls_mapChannel_of_closed (closed _ (Or.inr ⟨job, at_phase, rfl⟩)) change
  have inInbox : ∀ request, .stream request ∈ (state.workers worker).inbox →
      request.call = index → (state.calls index).channel? request.channel = none :=
    fun request member => closed request (Or.inl member)
  cases moves with
  | work => rfl
  | allocationPanic | stop => exact calls_dropInbox_of_closed _ inInbox
  | takeStream _ _ request inbox _ _ waiting =>
      exact calls_mapChannel_of_closed (inInbox request (by simp [waiting])) .hold
  | indexPanic _ _ job _ _ at_phase =>
      have dropped := atWork job at_phase .drop
      refine Eq.trans (calls_dropInbox_of_closed _ fun request member => ?_) dropped
      rw [dropped]
      exact inInbox request member
  | finish _ _ job _ at_phase => exact atWork job at_phase .drop
  | pushFull _ _ job bytes _ at_phase => exact atWork job at_phase (.push bytes)
  | pushRest _ _ job bytes _ at_phase =>
      have pushed := atWork job at_phase (.push bytes)
      refine Eq.trans (calls_mapChannel_of_closed (fun same => ?_) .drop) pushed
      rw [pushed]
      exact closed _ (Or.inr ⟨job, at_phase, rfl⟩) same

/-- A worker that moves is up. -/
theorem Moves.work_up {worker : Nat} {now : ServerLayout.Ty}
    (moves : Moves config state (.work worker now) next) :
    (state.workers worker).isDown = false := by
  cases moves with
  | work _ _ after _ moves => cases moves <;> simp [Worker.isDown, *]
  | _ => simp [Worker.isDown, *]

theorem Moves.work_elsewhere {worker : Nat} {now : ServerLayout.Ty}
    (moves : Moves config state (.work worker now) next) {other : Nat}
    (different : other ≠ worker) : next.workers other = state.workers other := by
  cases moves with
  | allocationPanic | stop | indexPanic =>
      rw [dropInbox_eq]
      exact Function.update_of_ne different ..
  | _ => exact Function.update_of_ne different ..

/-- A worker that goes away leaves nothing behind. -/
theorem Moves.work_leaves {worker : Nat} {now : ServerLayout.Ty}
    (moves : Moves config state (.work worker now) next) {other : Nat} {work : WorkRequest}
    (down : (next.workers other).isDown = true) (member : work ∈ (next.workers other).inbox) :
    (state.workers other).isDown = true ∧ work ∈ (state.workers other).inbox := by
  have update : ∀ after : Worker, next.workers = Function.update state.workers worker after →
      (after.isDown = true → after.inbox = []) →
      (state.workers other).isDown = true ∧ work ∈ (state.workers other).inbox := by
    intro after workers leaves
    rw [workers] at down member
    by_cases same : other = worker
    · rw [same, Function.update_self] at down member
      rw [leaves down] at member
      cases member
    · rw [Function.update_of_ne same] at down member
      exact ⟨down, member⟩
  cases moves with
  | work _ _ after _ moves =>
      refine update after rfl fun isDown => ?_
      cases moves with
      | pause job at_phase => simp [Worker.isDown, at_phase] at isDown
      | _ => cases isDown
  | allocationPanic | stop | indexPanic =>
      exact update _ (by rw [dropInbox_eq]; rfl) fun _ => rfl
  | takeStream | finish | pushFull | pushRest =>
      exact update _ rfl fun isDown => by cases isDown

end Untouched

section Steps

variable {config : ServerConfig} {state next : State} {index : Nat}

/-- A worker that is gone stays so, and nothing is taken out of its inbox. -/
def KeepsDown (workers later : Nat → Worker) : Prop :=
  ∀ worker, (workers worker).isDown = true → (later worker).isDown = true ∧
    ∀ work ∈ (workers worker).inbox, work ∈ (later worker).inbox

theorem KeepsDown.refl (workers : Nat → Worker) : KeepsDown workers workers :=
  fun _ isDown => ⟨isDown, fun _ => id⟩

/-- One worker stays in its phase and loses nothing. -/
theorem keepsDown_update {workers : Nat → Worker} (owner : Nat) {worker : Worker}
    (phase : worker.phase = (workers owner).phase)
    (inbox : ∀ work ∈ (workers owner).inbox, work ∈ worker.inbox) :
    KeepsDown workers (Function.update workers owner worker) := by
  intro other isDown
  by_cases isOwner : other = owner
  · subst isOwner
    rw [Function.update_self]
    exact ⟨by rwa [Worker.isDown, phase], inbox⟩
  · rw [Function.update_of_ne isOwner]
    exact ⟨isDown, fun _ => id⟩

/-- A worker that moves is not one that is gone. -/
theorem Moves.work_keepsDown {worker : Nat} {now : ServerLayout.Ty}
    (moves : Moves config state (.work worker now) next) :
    KeepsDown state.workers next.workers := by
  intro other isDown
  have different : other ≠ worker := by
    rintro rfl
    rw [moves.work_up] at isDown
    cases isDown
  rw [moves.work_elsewhere different]
  exact ⟨isDown, fun _ => id⟩

/-- The call stays as it is, and its worker keeps what lies in its inbox. -/
theorem Stranded.frame (stranded : Stranded state index)
    (phase : (next.calls index).phase = (state.calls index).phase)
    (workers : KeepsDown state.workers next.workers) : Stranded next index := by
  obtain ⟨remaining, channel, at_phase, empty, sender, down, member⟩ := stranded
  obtain ⟨staysDown, keeps⟩ := workers channel.worker down
  exact ⟨remaining, channel, phase.trans at_phase, empty, sender, staysDown, keeps _ member⟩

/-- Another call is none of its business. -/
theorem Stranded.of_update {other : Nat} {call : Call} (stranded : Stranded state index)
    (different : index ≠ other) (calls : next.calls = Function.update state.calls other call)
    (workers : KeepsDown state.workers next.workers) : Stranded next index := by
  apply stranded.frame _ workers
  rw [calls, Function.update_of_ne different]

/-- The stream waits for its worker, not for itself. -/
theorem Stranded.not_callMoves {after : Call} {inflight : BitVec 64} {nextWorker : Nat}
    (stranded : Stranded state index) :
    ¬ CallMoves config state (state.calls index) after inflight nextWorker := by
  obtain ⟨remaining, channel, at_phase, empty, sender, _⟩ := stranded
  intro moves
  cases moves <;> simp_all

theorem Stranded.ne_of_phase {other remaining : Nat} {stage : Stage}
    (stranded : Stranded state index)
    (at_phase : (state.calls other).phase = .feeding remaining stage)
    (elsewhere : ∀ channel, stage ≠ .receiving channel) : index ≠ other := by
  obtain ⟨_, channel, waiting, _⟩ := stranded
  rintro rfl
  rw [waiting] at at_phase
  cases at_phase
  exact elsewhere channel rfl

/-- No worker that moves has a request of its channel. -/
theorem Stranded.work_untouched {worker : Nat} {now : ServerLayout.Ty}
    (wired : Wired config state) (stranded : Stranded state index)
    (moves : Moves config state (.work worker now) next) :
    next.calls index = state.calls index := by
  obtain ⟨remaining, channel, at_phase, _, _, down, _⟩ := stranded
  refine moves.work_untouched fun request has isCall => ?_
  have named := (wired.named worker request has).agrees
  rw [isCall] at named
  cases found : (state.calls index).channel? request.channel with
  | none => rfl
  | some held =>
      have here : (state.calls index).channel? channel.number = some channel :=
        channel?_eq_some.mpr ⟨rfl, remaining, Or.inl at_phase⟩
      obtain rfl := channel?_unique found here
      rw [(named held found).1, moves.work_up] at down
      cases down

/-- Nothing that a step does brings an answer. -/
theorem Stranded.step {label : Label} (wired : Wired config state)
    (stranded : Stranded state index) (stepped : Server.step config state label = some next) :
    Stranded next index := by
  have same := KeepsDown.refl state.workers
  have moves := moves_of_step stepped
  cases label with
  | arrive count =>
      cases moves with
      | arrive =>
          have present : index ≠ state.arrivals := by
            rintro rfl
            obtain ⟨_, _, at_phase, _⟩ := stranded
            rw [wired.absent _ (Nat.le_refl _)] at at_phase
            cases at_phase
          exact stranded.of_update present rfl same
  | receive other | disconnect other =>
      cases moves
      refine stranded.frame ?_ same
      by_cases isIndex : index = other
      · subst isIndex
        simp only [State.setCall, Function.update_self]
      · simp only [State.setCall, Function.update_of_ne isIndex]
  | call other =>
      cases moves with
      | call _ after _ _ moves =>
          have different : index ≠ other := by
            rintro rfl
            exact stranded.not_callMoves moves
          exact stranded.of_update different rfl same
      | reserve _ _ owner _ other_phase =>
          exact stranded.of_update (stranded.ne_of_phase other_phase (by simp)) rfl
            (keepsDown_update owner rfl fun _ => id)
      | send _ _ owner _ other_phase =>
          exact stranded.of_update (stranded.ne_of_phase other_phase (by simp)) rfl
            (keepsDown_update owner rfl fun _ => List.mem_append_left _)
  | work worker now =>
      exact stranded.frame (congrArg Call.phase (stranded.work_untouched wired moves))
        moves.work_keepsDown
  | abort other =>
      cases moves with
      | abort => exact stranded.frame rfl same
  | manage timeout =>
      cases moves with
      | notify _ owner =>
          exact stranded.frame rfl (keepsDown_update owner rfl fun _ => List.mem_append_left _)
      | _ => exact stranded.frame rfl same

theorem Stranded.run (checked : config.Checked) {labels : List Label}
    (wired : Wired config state) (stranded : Stranded state index)
    (ran : Transition.run (Server.step config) state labels = some next) :
    Stranded next index := by
  refine (Transition.run_invariant_always
    (fun state => Wired config state ∧ Stranded state index) ?_ ⟨wired, stranded⟩ ran).2
  rintro state label next ⟨wired, stranded⟩ stepped
  exact ⟨wired.step checked stepped, stranded.step wired stepped⟩

/-! ## What is left behind -/

/-- What lies in the inbox of a worker that is gone is a request of a stranded stream. -/
def LeavesStranded (state : State) : Prop :=
  ∀ worker, (state.workers worker).isDown = true → ∀ work ∈ (state.workers worker).inbox,
    ∃ request, work = .stream request ∧ Stranded state request.call

theorem leavesStranded_initial (config : ServerConfig) : LeavesStranded (initial config) := by
  intro worker down
  cases down

theorem LeavesStranded.step {label : Label} (leaves : LeavesStranded state)
    (wired : Wired config state) (stepped : Server.step config state label = some next) :
    LeavesStranded next := by
  intro worker down work member
  -- what was there before is as it was
  have earlier : (state.workers worker).isDown = true → work ∈ (state.workers worker).inbox →
      ∃ request, work = .stream request ∧ Stranded next request.call := by
    intro wasDown was
    obtain ⟨request, isStream, stranded⟩ := leaves worker wasDown work was
    exact ⟨request, isStream, stranded.step wired stepped⟩
  have moves := moves_of_step stepped
  cases label with
  | work other now =>
      obtain ⟨wasDown, was⟩ := moves.work_leaves down member
      exact earlier wasDown was
  | arrive | receive | disconnect | abort => cases moves; exact earlier down member
  | call other =>
      cases moves with
      | call => exact earlier down member
      | reserve _ _ owner =>
          simp only [State.setWorker, State.setCall] at down member
          by_cases same : worker = owner
          · rw [same, Function.update_self] at down member
            exact earlier (same ▸ down) (same ▸ member)
          · rw [Function.update_of_ne same] at down member
            exact earlier down member
      | send _ remaining owner chunkSize at_phase =>
          simp only [State.setWorker, State.setCall] at down member
          by_cases same : worker = owner
          · subst same
            rw [Function.update_self] at down member
            rcases List.mem_append.mp member with old | new
            · exact earlier down old
            · refine ⟨_, List.mem_singleton.mp new, remaining,
                ⟨(state.calls other).channels, worker, chunkSize, .queued, false, []⟩, ?_, rfl, rfl,
                ?_, ?_⟩
              · simp [State.setWorker, State.setCall]
              · simpa [State.setWorker, Worker.isDown] using down
              · simp [State.setWorker, ChunkChannel.request]
          · rw [Function.update_of_ne same] at down member
            exact earlier down member
  | manage timeout =>
      cases moves with
      | notify _ owner _ _ up =>
          simp only [State.setWorker] at down member
          by_cases same : worker = owner
          · rw [same, Function.update_self] at down
            simp only [Worker.isDown] at down up
            rw [up] at down
            cases down
          · rw [Function.update_of_ne same] at down member
            exact earlier down member
      | _ => exact earlier down member

theorem LeavesStranded.run (checked : config.Checked) {labels : List Label}
    (ran : Transition.run (Server.step config) (initial config) labels = some state) :
    LeavesStranded state := by
  refine (Transition.run_invariant_always
    (fun state => Wired config state ∧ LeavesStranded state) ?_
    ⟨wired_initial config, leavesStranded_initial config⟩ ran).2
  rintro state label next ⟨wired, leaves⟩ stepped
  exact ⟨wired.step checked stepped, leaves.step wired stepped⟩

end Steps

end Ferroid.Server
