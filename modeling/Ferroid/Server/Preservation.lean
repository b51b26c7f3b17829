import Ferroid.Library.Transition
import Ferroid.Server.Permits

/-!
Contract: every step keeps the invariant, unless it hands the last request of a
stream to a worker that is already gone for it.

Owns the invariant of workers across their own steps and across the steps of
others, the condition on steps, and the run lemma.

Does not own what follows from the invariant.
-/

namespace Ferroid.Server

open Ferroid.Id
open Ferroid.Generator
open Ferroid.Library

/-! ## Workers while calls change -/

section Frame

variable {config : ServerConfig} {cancelled cancelled' : Bool} {calls calls' : Nat → Call}
  {index : Nat} {worker : Worker}

theorem keeps_update {call : Nat} {after : Call} (keeps : Keeps index (calls call) after) :
    ∀ other, Keeps index (calls other) (Function.update calls call after other) := by
  rw [Function.forall_update_iff calls fun other after => Keeps index (calls other) after]
  exact ⟨keeps, fun other _ => .refl index (calls other)⟩

theorem JobOk.frame {call call' : Call} {buff : List UInt8} {buffPos : Nat} {job : Job}
    (ok : JobOk config call index buff buffPos job) (keeps : Keeps index call call') :
    JobOk config call' index buff buffPos job := by
  have held := keeps.linked job.request .held (by decide)
  unfold JobOk at *
  split
  · next at_point =>
      rw [at_point] at ok
      rcases ok with filling | answered
      · exact Or.inl { filling with linked := held filling.linked }
      · exact Or.inr { answered with served := keeps.served _ answered.served }
  · next at_point =>
      rw [at_point] at ok
      exact { ok with linked := held ok.linked }
  · next at_point =>
      rw [at_point] at ok
      exact { ok with linked := held ok.linked }
  · next at_point =>
      rw [at_point] at ok
      exact ⟨{ ok.1 with linked := held ok.1.linked }, ok.2⟩

theorem WorkerOk.frame (ok : WorkerOk config cancelled calls index worker)
    (keeps : ∀ call, Keeps index (calls call) (calls' call))
    (cancels : cancelled = true → cancelled' = true) :
    WorkerOk config cancelled' calls' index worker := by
  refine ⟨ok.short, fun request member => ?_, fun member => cancels (ok.notified member),
    ok.sentOk, ?_⟩
  · obtain ⟨linked, bound⟩ := ok.queued request member
    exact ⟨(keeps _).linked _ _ (by decide) linked, bound⟩
  have phaseOk := ok.phaseOk
  unfold PhaseOk at phaseOk ⊢
  split at phaseOk
  · exact phaseOk
  · exact phaseOk
  · exact ⟨phaseOk.1, phaseOk.2.1, phaseOk.2.2.frame (keeps _)⟩
  · refine ⟨cancels phaseOk.1, fun request member => ?_⟩
    exact (keeps _).more _ (ok.queued request member).1 (phaseOk.2 request member)
  · exact cancels phaseOk
  · exact phaseOk

end Frame

/-! ## The steps of a worker -/

section Work

variable {config : ServerConfig} {state : State} {now : ServerLayout.Ty} {index : Nat}
  {worker next : Worker}

/-- The request a worker holds is linked, or its call is gone. -/
theorem JobOk.linked_or_gone {call : Call} {buff : List UInt8} {buffPos : Nat} {job : Job}
    (ok : JobOk config call index buff buffPos job) :
    (∃ fed, Linked call index job.request .held fed) ∨ Gone call := by
  unfold JobOk at ok
  split at ok
  · rcases ok with filling | ⟨linked | gone, _, _⟩
    · exact Or.inl ⟨false, filling.linked⟩
    · exact Or.inl ⟨true, linked⟩
    · exact Or.inr gone
  · exact Or.inl ⟨false, ok.linked⟩
  · exact Or.inl ⟨false, ok.linked⟩
  · exact Or.inl ⟨false, ok.1.linked⟩

theorem Linked.not_closed {request : StreamRequest} {sender : Sender} {fed : Bool}
    (linked : Linked (state.calls request.call) index request sender fed) :
    state.isClosed request = false := by
  obtain ⟨channel, found, _⟩ := linked
  rw [State.isClosed, found]
  rfl

/-- Writing an ID into the buffer. -/
theorem Filling.write {call : Call} {buff : List UInt8} {buffPos : Nat} {job : Job}
    (checked : config.Checked) (filling : Filling config call index buffPos job)
    (buffLength : buff.length = config.chunkBytes)
    (small : job.request.chunkSize ≤ config.idsPerChunk)
    (more : job.generated < job.request.chunkSize) :
    JobOk config call index buff (buffPos + SNOWFLAKE_ID_SIZE)
      ⟨job.request, job.generated + 1,
        if buffPos + SNOWFLAKE_ID_SIZE = config.chunkBytes then .checking else .generating⟩ := by
  have bytes := checked.chunkBytes_eq
  obtain ⟨linked, position, bound, room⟩ := filling
  by_cases isFull : buffPos + SNOWFLAKE_ID_SIZE = config.chunkBytes
  · rw [if_pos isFull]
    simp only [SNOWFLAKE_ID_SIZE] at bytes position isFull
    refine ⟨linked, ?_, ?_, ?_⟩ <;> simp only [SNOWFLAKE_ID_SIZE] <;> omega
  · rw [if_neg isFull]
    simp only [SNOWFLAKE_ID_SIZE] at bytes position isFull
    refine Or.inl ⟨linked, ?_, ?_, Or.inl ?_⟩ <;> simp only [SNOWFLAKE_ID_SIZE] <;> omega

/-- The steps of a worker that touch no channel keep its invariant. -/
theorem WorkMoves.workerOk (checked : config.Checked)
    (moves : WorkMoves config state now worker next)
    (ok : WorkerOk config state.cancelled state.calls index worker) :
    WorkerOk config state.cancelled state.calls index next := by
  have phaseOk := ok.phaseOk
  unfold PhaseOk at phaseOk
  cases moves with
  | start at_phase fits =>
      exact ⟨ok.short, ok.queued, ok.notified, ok.sentOk, List.length_replicate .., rfl⟩
  | takeShutdown inbox at_phase next =>
      have isCancelled := ok.notified (by simp [next])
      have empty : inbox = [] := by
        have short := ok.short
        rw [next] at short
        exact List.eq_nil_of_length_eq_zero (Nat.le_zero.mp (Nat.le_of_succ_le_succ short))
      subst empty
      exact ⟨Nat.zero_le _, by simp, by simp, ok.sentOk, isCancelled, by simp⟩
  | pause job at_phase generating more pending =>
      refine ⟨ok.short, ok.queued, ok.notified, ok.sentOk, ?_⟩
      simp only [at_phase, PhaseOk] at phaseOk ⊢
      exact phaseOk
  | write job id at_phase generating more ready fits =>
      refine ⟨ok.short, ok.queued, ok.notified, ok.sentOk, ?_⟩
      simp only [at_phase, JobOk, generating] at phaseOk
      obtain ⟨buffLength, small, filling | answered⟩ := phaseOk
      · have length : (worker.buff.take worker.buffPos ++ toLeBytes id ++
            worker.buff.drop (worker.buffPos + SNOWFLAKE_ID_SIZE)).length =
              config.chunkBytes := by
          simp only [List.length_append, List.length_take, length_toLeBytes, List.length_drop]
          omega
        exact ⟨length, small, filling.write checked length small more⟩
      · have all := answered.all
        omega
  | rest job at_phase generating all some alive =>
      refine ⟨ok.short, ok.queued, ok.notified, ok.sentOk, ?_⟩
      simp only [at_phase, PhaseOk, JobOk, generating] at phaseOk ⊢
      obtain ⟨buffLength, small, filling | answered⟩ := phaseOk
      · have bytes := checked.chunkBytes_eq
        obtain ⟨linked, position, bound, room⟩ := filling
        refine ⟨buffLength, small, ⟨linked, ?_, ?_, ?_⟩, trivial⟩ <;>
          simp only [SNOWFLAKE_ID_SIZE, List.length_take] at * <;> omega
      · have empty := answered.empty
        omega
  | full job at_phase checking alive =>
      refine ⟨ok.short, ok.queued, ok.notified, ok.sentOk, ?_⟩
      simp only [at_phase, PhaseOk, JobOk, checking] at phaseOk ⊢
      exact ⟨phaseOk.1, phaseOk.2.1, { phaseOk.2.2 with }⟩

/-- A message is put into an empty inbox. -/
theorem WorkerOk.enqueue {cancelled : Bool} {calls : Nat → Call} {work : WorkRequest}
    (ok : WorkerOk config cancelled calls index worker)
    (room : worker.inbox.length < inboxCapacity)
    (notified : work = .shutdown → cancelled = true)
    (queued : ∀ request, work = .stream request →
      (Linked (calls request.call) index request .queued false ∧
        request.chunkSize ≤ config.idsPerChunk) ∧
      (worker.phase = .starting → config.chunkBytes ≤ isizeMax) ∧
      (worker.phase = .stopping → MoreToCome (calls request.call))) :
    WorkerOk config cancelled calls index
      { worker with inbox := worker.inbox ++ [work] } := by
  have empty : worker.inbox = [] := List.eq_nil_of_length_eq_zero (Nat.lt_one_iff.mp room)
  have only : ∀ other, other ∈ worker.inbox ++ [work] → work = other := by
    intro other member
    rw [empty, List.nil_append, List.mem_singleton] at member
    exact member.symm
  refine ⟨by simp [empty, inboxCapacity], fun request member => (queued _ (only _ member)).1,
    fun member => notified (only _ member), ok.sentOk, ?_⟩
  have phaseOk := ok.phaseOk
  unfold PhaseOk at phaseOk
  split at phaseOk
  · next at_phase =>
      simp only [PhaseOk, at_phase]
      refine ⟨phaseOk.1, fun large request member => ?_⟩
      have fits := (queued _ (only _ member)).2.1 at_phase
      omega
  · next at_phase => simpa only [PhaseOk, at_phase] using phaseOk
  · next at_phase => simpa only [PhaseOk, at_phase] using phaseOk
  · next at_phase =>
      simp only [PhaseOk, at_phase]
      exact ⟨phaseOk.1, fun request member => (queued _ (only _ member)).2.2 at_phase⟩
  · next at_phase => simpa only [PhaseOk, at_phase] using phaseOk
  · next at_phase => simpa only [PhaseOk, at_phase] using phaseOk

/-- A worker gives a permit or gets it back. -/
theorem WorkerOk.withPermits {cancelled : Bool} {calls : Nat → Call}
    (ok : WorkerOk config cancelled calls index worker) (permits : List Nat) :
    WorkerOk config cancelled calls index { worker with permits := permits } :=
  ⟨ok.short, ok.queued, ok.notified, ok.sentOk, ok.phaseOk⟩

/-- What happens to the channel of one request goes unnoticed by those queued at the
same worker. -/
theorem queued_update {calls : Nat → Call} {held request : StreamRequest}
    (holds : (∃ fed, Linked (calls held.call) index held .held fed) ∨ Gone (calls held.call))
    (queued : Linked (calls request.call) index request .queued false) (after : Call) :
    Linked (Function.update calls held.call after request.call) index request .queued false := by
  rw [Function.update_of_ne]
  · exact queued
  intro same
  rw [same] at queued
  rcases holds with ⟨_, linked⟩ | gone
  · cases (queued.unique linked).2.1
  · exact queued.not_gone gone

theorem WorkerOk.sentOk_append {cancelled : Bool} {calls : Nat → Call} {bytes : IdChunk}
    (ok : WorkerOk config cancelled calls index worker) (chunkOk : ChunkOk config bytes) :
    ∀ chunk ∈ worker.sent ++ [bytes], ChunkOk config chunk := by
  intro chunk member
  rcases List.mem_append.mp member with earlier | last
  · exact ok.sentOk chunk earlier
  · rw [List.mem_singleton.mp last]
    exact chunkOk

/-- A worker with a request of which it holds the sender; its call changes. -/
theorem WorkerOk.acts {cancelled : Bool} {calls : Nat → Call} {held : StreamRequest}
    {after : Call} (ok : WorkerOk config cancelled calls index worker)
    (holds : (∃ fed, Linked (calls held.call) index held .held fed) ∨ Gone (calls held.call))
    (inbox : next.inbox = worker.inbox) (sentOk : ∀ chunk ∈ next.sent, ChunkOk config chunk)
    (phaseOk : PhaseOk config cancelled (Function.update calls held.call after) index next) :
    WorkerOk config cancelled (Function.update calls held.call after) index next where
  short := by
    rw [inbox]
    exact ok.short
  queued request member := by
    rw [inbox] at member
    obtain ⟨queued, small⟩ := ok.queued request member
    exact ⟨queued_update holds queued after, small⟩
  notified member := ok.notified (by rwa [inbox] at member)
  sentOk := sentOk
  phaseOk := phaseOk

end Work

/-! ## One step -/

/-- A feed task may push a request to its worker, but not to one that cannot start, and to
one that is already leaving only when more requests are to follow. -/
def MayHandOver (config : ServerConfig) (workers : Nat → Worker) : CallPhase → Prop
  | .feeding remaining (.pushing worker _) =>
      ((workers worker).phase = .starting → config.chunkBytes ≤ isizeMax) ∧
        ((workers worker).phase = .stopping → 0 < remaining)
  | _ => True

instance (config : ServerConfig) (workers : Nat → Worker) :
    DecidablePred (MayHandOver config workers)
  | .feeding remaining (.pushing worker _) =>
      inferInstanceAs (Decidable
        (((workers worker).phase = .starting → config.chunkBytes ≤ isizeMax) ∧
          ((workers worker).phase = .stopping → 0 < remaining)))
  | .feeding _ .top | .feeding _ (.checking _) | .feeding _ (.picking _)
  | .feeding _ (.sending _ _) | .feeding _ (.receiving _) | .feeding _ (.forwarding _ _)
  | .feeding _ (.failing _)
  | .absent | .arrived | .checked | .counted | .rejected _ | .panicked | .returned | .done =>
      isTrue trivial

/-- The condition on steps. -/
def Safe (config : ServerConfig) (state : State) : Label → Prop
  | .call index => MayHandOver config state.workers (state.calls index).phase
  | _ => True

instance (config : ServerConfig) (state : State) : DecidablePred (Safe config state)
  | .call index =>
      inferInstanceAs (Decidable (MayHandOver config state.workers (state.calls index).phase))
  | .arrive _ | .receive _ | .disconnect _ | .work _ _ | .abort _ | .manage _ => isTrue trivial

section Step

variable {config : ServerConfig} {state next : State}

theorem Gone.ne_absent {call : Call} (gone : Gone call) : call ≠ Call.absent := by
  rintro rfl
  rcases gone with at_phase | at_phase <;> cases at_phase

theorem Linked.ne_absent {call : Call} {worker : Nat} {request : StreamRequest} {sender : Sender}
    {fed : Bool} (linked : Linked call worker request sender fed) : call ≠ Call.absent := by
  rintro rfl
  obtain ⟨channel, found, _⟩ := linked
  cases found

theorem CallMoves.ne_absent {call after : Call} {inflight : BitVec 64} {nextWorker : Nat}
    (moves : CallMoves config state call after inflight nextWorker) : call ≠ Call.absent := by
  rintro rfl
  cases moves <;> simp_all [Call.absent]

theorem ne_absent_of_hasStream {call : Call} (stream : call.hasStream = true) :
    call ≠ Call.absent := by
  rintro rfl
  cases stream

/-- A request arrives. -/
theorem Inv.arrive (inv : Inv config state) (count : Nat) :
    Inv config { state.setCall state.arrivals
        { Call.absent with count := count, phase := .arrived } with
      arrivals := state.arrivals + 1 } := by
  have absent := inv.absent state.arrivals (Nat.le_refl _)
  refine ⟨?_, ?_, ?_, inv.notifying⟩
  · intro index beyond
    have other : index ≠ state.arrivals := by
      simp only at beyond
      omega
    simp only [State.setCall, Function.update_of_ne other]
    exact inv.absent index (Nat.le_of_succ_le beyond)
  · intro index
    by_cases same : index = state.arrivals
    · simp [State.setCall, same, CallOk, Call.absent]
    · simp only [State.setCall, Function.update_of_ne same]
      exact inv.calls index
  · intro index
    refine (inv.workers index).frame (keeps_update ?_) id
    rw [absent]
    exact .of_closed (fun _ => rfl) (by simp [Gone, Call.absent])

/-- One call changes, with at most one worker. -/
theorem Inv.update (inv : Inv config state) {index : Nat} {call : Call} {owner : Nat}
    {worker : Worker} (calls : next.calls = Function.update state.calls index call)
    (workers : next.workers = Function.update state.workers owner worker)
    (arrivals : next.arrivals = state.arrivals) (cancelled : next.cancelled = state.cancelled)
    (manager : next.manager = state.manager) (present : state.calls index ≠ Call.absent)
    (callOk : CallOk config state.cancelled call)
    (keeps : ∀ other, other ≠ owner → Keeps other (state.calls index) call)
    (workerOk : WorkerOk config state.cancelled (Function.update state.calls index call) owner
      worker) : Inv config next := by
  refine ⟨?_, ?_, ?_, ?_⟩
  · intro other beyond
    rw [arrivals] at beyond
    have absent := inv.absent other beyond
    rw [calls, Function.update_of_ne, absent]
    rintro rfl
    exact present absent
  · rw [cancelled, calls, Function.forall_update_iff state.calls
      fun _ call => CallOk config state.cancelled call]
    exact ⟨callOk, fun other _ => inv.calls other⟩
  · rw [cancelled, calls, workers, Function.forall_update_iff state.workers
      fun other worker => WorkerOk config state.cancelled _ other worker]
    exact ⟨workerOk, fun other distinct =>
      (inv.workers other).frame (keeps_update (keeps other distinct)) id⟩
  · rw [manager, cancelled]
    exact inv.notifying

/-- Only a call changes. -/
theorem Inv.updateCall (inv : Inv config state) {index : Nat} {call : Call}
    (calls : next.calls = Function.update state.calls index call)
    (workers : next.workers = state.workers) (arrivals : next.arrivals = state.arrivals)
    (cancelled : next.cancelled = state.cancelled) (manager : next.manager = state.manager)
    (present : state.calls index ≠ Call.absent) (callOk : CallOk config state.cancelled call)
    (keeps : ∀ worker, Keeps worker (state.calls index) call) : Inv config next :=
  inv.update calls (workers.trans (Function.update_eq_self 0 state.workers).symm) arrivals
    cancelled manager present callOk (fun worker _ => keeps worker)
    ((inv.workers 0).frame (keeps_update (keeps 0)) id)

/-- Only a worker changes. -/
theorem Inv.updateWorker (inv : Inv config state) {owner : Nat} {worker : Worker}
    (calls : next.calls = state.calls)
    (workers : next.workers = Function.update state.workers owner worker)
    (arrivals : next.arrivals = state.arrivals) (cancelled : next.cancelled = state.cancelled)
    (notifying : (∃ index, next.manager = .notifying index) → next.cancelled = true)
    (workerOk : WorkerOk config state.cancelled state.calls owner worker) : Inv config next := by
  refine ⟨?_, ?_, ?_, notifying⟩
  · rw [calls, arrivals]
    exact inv.absent
  · rw [calls, cancelled]
    exact inv.calls
  · rw [cancelled, calls, workers, Function.forall_update_iff state.workers
      fun other worker => WorkerOk config state.cancelled state.calls other worker]
    exact ⟨workerOk, fun other _ => inv.workers other⟩

/-- A feed task takes a permit. -/
theorem Inv.reserve (inv : Inv config state) {index remaining worker chunkSize : Nat}
    (at_phase : (state.calls index).phase = .feeding remaining (.sending worker chunkSize)) :
    Inv config ((state.setCall index
      { state.calls index with
        phase := .feeding remaining (.pushing worker chunkSize) }).setWorker worker
      { state.workers worker with permits := index :: (state.workers worker).permits }) := by
  have unknown : ∀ other after, Keeps other (state.calls index) after := fun other after =>
    .of_closed (by simp [Call.channel?, at_phase]) (by simp [Gone, at_phase])
  refine inv.update rfl rfl rfl rfl rfl ?_ ?_ (fun other _ => unknown other _) ?_
  · intro absent
    rw [absent] at at_phase
    cases at_phase
  · exact (inv.calls index).restage at_phase rfl rfl rfl rfl rfl (fun shape => shape)
      fun _ _ owed => owed
  · exact ((inv.workers worker).frame (keeps_update (unknown worker _)) id).withPermits _

/-- A request is put into the inbox of a worker. -/
theorem Inv.send (inv : Inv config state) (permitted : Permitted state)
    {index remaining worker chunkSize : Nat} (safe : Safe config state (.call index))
    (at_phase : (state.calls index).phase = .feeding remaining (.pushing worker chunkSize)) :
    Inv config ((state.setCall index
      { state.calls index with
        phase := .feeding remaining (.receiving
          ⟨(state.calls index).channels, worker, chunkSize, .queued, false, []⟩) }).setWorker
      worker
      { state.workers worker with
        inbox := (state.workers worker).inbox ++
          [.stream ⟨index, (state.calls index).channels, chunkSize⟩]
        permits := (state.workers worker).permits.erase index }) := by
  have callOk := inv.calls index
  have unknown : ∀ other after, Keeps other (state.calls index) after := fun other after =>
    .of_closed (by simp [Call.channel?, at_phase]) (by simp [Gone, at_phase])
  have small : chunkSize ≤ config.idsPerChunk := by
    simp only [CallOk, at_phase] at callOk
    exact callOk.1
  simp only [Safe, MayHandOver, at_phase] at safe
  obtain ⟨startsSafe, stopsSafe⟩ := safe
  refine inv.update rfl rfl rfl rfl rfl ?_ ?_ (fun other _ => unknown other _) ?_
  · intro absent
    rw [absent] at at_phase
    cases at_phase
  · refine callOk.restage at_phase rfl rfl rfl rfl rfl ?_ ?_
    · intro _
      simp [StageShape]
    · intro sizes _ owed
      simpa [StageAccounts] using owed
  refine (WorkerOk.enqueue ((inv.workers worker).frame (keeps_update (unknown worker _)) id)
    (permitted.room at_phase) (fun isShutdown => by cases isShutdown) ?_).withPermits _
  rintro request ⟨rfl⟩
  rw [Function.update_self]
  refine ⟨⟨(linked_iff (Or.inl rfl)).mpr ⟨rfl, rfl, rfl, rfl, rfl⟩, small⟩, startsSafe, ?_⟩
  exact fun stopping => ⟨remaining, _, rfl, stopsSafe stopping⟩

/-- A worker takes a request out of its inbox. -/
theorem Inv.takeStream (inv : Inv config state) {index : Nat} {request : StreamRequest}
    {inbox : List WorkRequest} (at_phase : (state.workers index).phase = .waiting)
    (waiting : (state.workers index).inbox = .stream request :: inbox) :
    Inv config ((state.mapChannel request .hold).setWorker index
      { state.workers index with
        inbox := inbox
        phase := .handling ⟨request, 0, .generating⟩ }) := by
  have workerOk := inv.workers index
  obtain ⟨linked, small⟩ := workerOk.queued request (by simp [waiting])
  have empty : inbox = [] := by
    have short := workerOk.short
    rw [waiting] at short
    exact List.eq_nil_of_length_eq_zero (Nat.le_zero.mp (Nat.le_of_succ_le_succ short))
  subst empty
  have phaseOk := workerOk.phaseOk
  simp only [PhaseOk, at_phase] at phaseOk
  refine inv.update rfl rfl rfl rfl rfl linked.ne_absent ((inv.calls _).hold linked (by decide))
    (fun other elsewhere => .of_linked linked elsewhere)
    ⟨Nat.zero_le _, by simp, by simp, workerOk.sentOk, ?_⟩
  simp only [PhaseOk, JobOk, Function.update_self]
  refine ⟨phaseOk.1, small, Or.inl ⟨linked.hold, by simp [phaseOk.2], Nat.zero_le _, ?_⟩⟩
  simp only
  omega

/-- A worker that returns without sending owes nothing: the request asked for
nothing, or it is answered. -/
theorem Finishes.settled {job : Job} {worker : Worker} {index : Nat}
    (finishes : Finishes state worker job)
    (ok : JobOk config (state.calls job.request.call) index worker.buff worker.buffPos job) :
    worker.buffPos = 0 ∧
      ((Linked (state.calls job.request.call) index job.request .held false ∧
        job.request.chunkSize = 0) ∨ Served (state.calls job.request.call) index job.request) := by
  cases finishes with
  | exhausted generating all nothing =>
      simp only [JobOk, generating] at ok
      rcases ok with filling | answered
      · have empty : worker.buffPos = 0 := by
          by_contra some
          exact nothing ⟨Nat.pos_of_ne_zero some, filling.linked.not_closed⟩
        have position := filling.position
        have bound := filling.bound
        simp only [SNOWFLAKE_ID_SIZE] at position
        exact ⟨empty, Or.inl ⟨filling.linked, by omega⟩⟩
      · exact ⟨answered.empty, Or.inr answered.served⟩
  | closed sending closed =>
      -- the receiver outlives an unanswered request
      have alive : Linked (state.calls job.request.call) index job.request .held false := by
        unfold JobOk at ok
        split at ok
        · next generating => exact absurd generating sending
        · exact ok.linked
        · exact ok.linked
        · exact ok.1.linked
      rw [alive.not_closed] at closed
      cases closed

theorem keeps_mapChannel {call : Call} {index other : Nat} {request : StreamRequest}
    (holds : (∃ fed, Linked call index request .held fed) ∨ Gone call) (elsewhere : other ≠ index)
    (change : ChunkChannel → ChunkChannel) :
    Keeps other call (call.mapChannel request.channel change) := by
  rcases holds with ⟨_, linked⟩ | gone
  · exact .of_linked linked elsewhere
  · rw [Call.mapChannel_gone gone]
    exact .refl other call

theorem ne_absent_of_holds {call : Call} {index : Nat} {request : StreamRequest}
    (holds : (∃ fed, Linked call index request .held fed) ∨ Gone call) : call ≠ Call.absent := by
  rcases holds with ⟨_, linked⟩ | gone
  · exact linked.ne_absent
  · exact gone.ne_absent

/-- A worker is done with a request. -/
theorem Inv.finish (inv : Inv config state) {index : Nat} {job : Job}
    (at_phase : (state.workers index).phase = .handling job)
    (finishes : Finishes state (state.workers index) job) :
    Inv config (finishJob state index (state.workers index) job) := by
  have workerOk := inv.workers index
  have phaseOk := workerOk.phaseOk
  simp only [PhaseOk, at_phase] at phaseOk
  obtain ⟨buffLength, _, jobOk⟩ := phaseOk
  obtain ⟨empty, settled⟩ := finishes.settled jobOk
  refine inv.update rfl rfl rfl rfl rfl (ne_absent_of_holds jobOk.linked_or_gone) ?_
    (fun other elsewhere => keeps_mapChannel jobOk.linked_or_gone elsewhere _)
    (workerOk.acts jobOk.linked_or_gone rfl workerOk.sentOk ⟨buffLength, empty⟩)
  rcases settled with ⟨linked, nothing⟩ | served
  · exact (inv.calls _).dropUnfed linked (by decide) (Or.inl nothing)
  · exact (inv.calls _).dropFed served

theorem Filled.chunkOk {call : Call} {index : Nat} {bytes : IdChunk} {job : Job}
    (filled : Filled call index bytes job) (small : job.request.chunkSize ≤ config.idsPerChunk) :
    ChunkOk config bytes :=
  ⟨job.request.chunkSize, filled.length, filled.positive, small⟩

/-- A worker sends a full buffer. -/
theorem Inv.pushFull (inv : Inv config state) {index : Nat} {job : Job} {bytes : IdChunk}
    (at_phase : (state.workers index).phase = .handling job)
    (sending : job.point = .sendingFull bytes) :
    Inv config ((state.mapChannel job.request (.push bytes)).setWorker index
      { state.workers index with
        buffPos := 0
        phase := .handling { job with point := .generating }
        sent := (state.workers index).sent ++ [bytes] }) := by
  have workerOk := inv.workers index
  have phaseOk := workerOk.phaseOk
  simp only [PhaseOk, at_phase, JobOk, sending] at phaseOk
  obtain ⟨buffLength, small, filled⟩ := phaseOk
  have holds : (∃ fed, Linked (state.calls job.request.call) index job.request .held fed) ∨
      Gone (state.calls job.request.call) := Or.inl ⟨false, filled.linked⟩
  refine inv.update rfl rfl rfl rfl rfl filled.linked.ne_absent
    ((inv.calls _).push filled.linked (by decide) (filled.chunkOk small)
      (chunkIds_eq filled.length))
    (fun other elsewhere => keeps_mapChannel holds elsewhere _)
    (workerOk.acts holds rfl (workerOk.sentOk_append (filled.chunkOk small)) ?_)
  simp only [PhaseOk, JobOk, Function.update_self]
  exact ⟨buffLength, small, Or.inr ⟨Or.inl (filled.linked.push bytes), filled.all, rfl⟩⟩

/-- A worker sends the rest of its buffer and is done. -/
theorem Inv.pushRest (inv : Inv config state) {index : Nat} {job : Job} {bytes : IdChunk}
    (at_phase : (state.workers index).phase = .handling job)
    (sending : job.point = .sendingRest bytes) :
    Inv config (finishJob (state.mapChannel job.request (.push bytes)) index
      { state.workers index with sent := (state.workers index).sent ++ [bytes] } job) := by
  have workerOk := inv.workers index
  have phaseOk := workerOk.phaseOk
  simp only [PhaseOk, at_phase, JobOk, sending] at phaseOk
  obtain ⟨buffLength, small, filled, empty⟩ := phaseOk
  have holds : (∃ fed, Linked (state.calls job.request.call) index job.request .held fed) ∨
      Gone (state.calls job.request.call) := Or.inl ⟨false, filled.linked⟩
  have pushed := (inv.calls _).push filled.linked (by decide) (filled.chunkOk small)
    (chunkIds_eq filled.length)
  have calls : (finishJob (state.mapChannel job.request (.push bytes)) index
      { state.workers index with sent := (state.workers index).sent ++ [bytes] } job).calls =
        Function.update state.calls job.request.call
          (((state.calls job.request.call).mapChannel job.request.channel (.push bytes)).mapChannel
            job.request.channel .drop) := by
    simp only [finishJob, State.mapChannel, State.setCall, State.setWorker, Function.update_self,
      Function.update_idem]
  exact inv.update calls rfl rfl rfl rfl filled.linked.ne_absent
    (pushed.dropFed (Or.inl (filled.linked.push bytes)))
    (fun other elsewhere => .of_linked filled.linked elsewhere)
    (workerOk.acts holds rfl (workerOk.sentOk_append (filled.chunkOk small)) ⟨buffLength, empty⟩)

/-- What is dropped with an inbox: at most one request. -/
theorem dropInbox_cases {inbox : List WorkRequest} (short : inbox.length ≤ inboxCapacity) :
    ((∀ request, WorkRequest.stream request ∉ inbox) ∧ state.dropInbox inbox = state) ∨
      ∃ request, inbox = [.stream request] ∧
        state.dropInbox inbox = state.mapChannel request .drop := by
  match inbox, short with
  | [], _ => exact Or.inl ⟨by simp, rfl⟩
  | [.shutdown], _ => exact Or.inl ⟨by simp, rfl⟩
  | [.stream request], _ => exact Or.inr ⟨request, rfl, rfl⟩

/-- A worker goes away with what is in its inbox: nothing, or a request of a
stream that asks for more. -/
theorem Inv.stop (inv : Inv config state) {index : Nat}
    (at_phase : (state.workers index).phase = .stopping) :
    Inv config ((state.dropInbox (state.workers index).inbox).setWorker index
      { state.workers index with inbox := [], phase := .stopped }) := by
  have workerOk := inv.workers index
  have phaseOk := workerOk.phaseOk
  simp only [PhaseOk, at_phase] at phaseOk
  obtain ⟨cancelled, more⟩ := phaseOk
  have stopped : ∀ calls, WorkerOk config state.cancelled calls index
      { state.workers index with inbox := [], phase := .stopped } :=
    fun calls => ⟨Nat.zero_le _, by simp, by simp, workerOk.sentOk, cancelled⟩
  rcases dropInbox_cases workerOk.short with ⟨_, same⟩ | ⟨request, waiting, dropped⟩
  · rw [same]
    exact inv.updateWorker rfl rfl rfl rfl inv.notifying (stopped _)
  · rw [dropped]
    obtain ⟨linked, _⟩ := workerOk.queued request (by simp [waiting])
    exact inv.update rfl rfl rfl rfl rfl linked.ne_absent
      ((inv.calls _).dropUnfed linked (by decide)
        (Or.inr ⟨cancelled, more request (by simp [waiting])⟩))
      (fun other elsewhere => .of_linked linked elsewhere) (stopped _)

/-- A worker that cannot allocate its buffer goes away with an empty inbox. -/
theorem Inv.allocationPanic (inv : Inv config state) {index : Nat}
    (at_phase : (state.workers index).phase = .starting) (large : isizeMax < config.chunkBytes) :
    Inv config ((state.dropInbox (state.workers index).inbox).setWorker index
      { state.workers index with inbox := [], phase := .panicked }) := by
  have workerOk := inv.workers index
  have phaseOk := workerOk.phaseOk
  simp only [PhaseOk, at_phase] at phaseOk
  have noStream := phaseOk.2 large
  rcases dropInbox_cases workerOk.short with ⟨_, same⟩ | ⟨request, waiting, _⟩
  · rw [same]
    exact inv.updateWorker rfl rfl rfl rfl inv.notifying
      ⟨Nat.zero_le _, by simp, by simp, workerOk.sentOk, large⟩
  · exact absurd (by simp [waiting]) (noStream request)

/-- A buffer has room for every ID of a request. -/
theorem Inv.not_beyond (checked : config.Checked) (inv : Inv config state) {index : Nat}
    {job : Job} (at_phase : (state.workers index).phase = .handling job)
    (generating : job.point = .generating) (more : job.generated < job.request.chunkSize) :
    (state.workers index).buffPos + SNOWFLAKE_ID_SIZE ≤ (state.workers index).buff.length := by
  have phaseOk := (inv.workers index).phaseOk
  simp only [PhaseOk, at_phase, JobOk, generating] at phaseOk
  obtain ⟨buffLength, small, filling | answered⟩ := phaseOk
  · have bytes := checked.chunkBytes_eq
    have position := filling.position
    simp only [SNOWFLAKE_ID_SIZE] at *
    omega
  · have all := answered.all
    omega

/-- A safe step keeps the invariant. -/
theorem Inv.step (checked : config.Checked) {label : Label} (inv : Inv config state)
    (permitted : Permitted state) (safe : Safe config state label)
    (stepped : Server.step config state label = some next) : Inv config next := by
  cases moves_of_step stepped with
  | arrive count bound => exact inv.arrive count
  | call index after inflight nextWorker moves =>
      exact inv.updateCall rfl rfl rfl rfl rfl moves.ne_absent (moves.callOk (inv.calls index))
        (moves.keeps (inv.calls index))
  | reserve index remaining worker chunkSize at_phase up room => exact inv.reserve at_phase
  | send index remaining worker chunkSize at_phase => exact inv.send permitted safe at_phase
  | receive index item resp stream connected waiting =>
      refine inv.updateCall rfl rfl rfl rfl rfl (ne_absent_of_hasStream stream)
        ((inv.calls index).client stream fun _ => ⟨connected, ?_⟩) fun _ => .of_phase rfl
      rw [waiting, List.append_assoc, List.singleton_append]
  | disconnect index stream connected =>
      exact inv.updateCall rfl rfl rfl rfl rfl (ne_absent_of_hasStream stream)
        ((inv.calls index).client stream fun connected => by cases connected)
        fun _ => .of_phase rfl
  | work index now after known moves =>
      exact inv.updateWorker rfl rfl rfl rfl inv.notifying
        (moves.workerOk checked (inv.workers index))
  | allocationPanic index now known at_phase large => exact inv.allocationPanic at_phase large
  | takeStream index now request inbox known at_phase waiting =>
      exact inv.takeStream at_phase waiting
  | indexPanic index now job id known at_phase generating more ready beyond =>
      exact absurd (inv.not_beyond checked at_phase generating more) (Nat.not_le_of_lt beyond)
  | finish index now job known at_phase finishes => exact inv.finish at_phase finishes
  | pushFull index now job bytes known at_phase sending alive room =>
      exact inv.pushFull at_phase sending
  | pushRest index now job bytes known at_phase sending alive room =>
      exact inv.pushRest at_phase sending
  | stop index now known at_phase => exact inv.stop at_phase
  | abort index known at_phase some fits =>
      exact ⟨inv.absent, inv.calls, inv.workers, inv.notifying⟩
  | beginShutdown timeout at_phase =>
      exact ⟨inv.absent, inv.calls, inv.workers, by simp⟩
  | drain timeout at_phase ended =>
      exact ⟨inv.absent, inv.calls, inv.workers, by simp⟩
  | cancel timeout at_phase =>
      exact ⟨inv.absent, fun index => (inv.calls index).cancel,
        fun index => (inv.workers index).frame (fun _ => .refl _ _) fun _ => rfl, fun _ => rfl⟩
  | skip timeout index at_phase known down =>
      exact ⟨inv.absent, inv.calls, inv.workers, fun _ => inv.notifying ⟨index, at_phase⟩⟩
  | notify timeout index at_phase known up room =>
      have cancelled := inv.notifying ⟨index, at_phase⟩
      exact inv.updateWorker rfl rfl rfl rfl (fun _ => cancelled)
        ((inv.workers index).enqueue room.inbox (fun _ => cancelled) fun _ isStream => by
          cases isStream)
  | finishShutdown timeout index at_phase all =>
      exact ⟨inv.absent, inv.calls, inv.workers, by simp⟩

/-- A safe run keeps the invariant. -/
theorem Inv.run (checked : config.Checked) {labels : List Label}
    (meets : Transition.Meets (Server.step config) (Safe config) (initial config) labels)
    (ran : Transition.run (Server.step config) (initial config) labels = some next) :
    Inv config next := by
  refine (Transition.run_invariant (fun state => Inv config state ∧ Permitted state) ?_
    ⟨inv_initial config, permitted_initial config⟩ meets ran).1
  intro state label next both safe stepped
  exact ⟨both.1.step checked both.2 safe stepped, both.2.step both.1.absent stepped⟩

end Step

end Ferroid.Server
