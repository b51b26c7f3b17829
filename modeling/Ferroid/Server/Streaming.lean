import Ferroid.Server.Progress

/-!
Contract: what clients get from a server that is not shutting down.

Owns the property of a state that every client relies on, the calm that a server
keeps without shutdown (no worker goes away, no request fails), and the exact
configurations in which every run has the property.

Does not own runs with a shutdown (`Server.Shutdown`).
-/

namespace Ferroid.Server

open Ferroid.Id
open Ferroid.Generator
open Ferroid.Library

/-! ## The property -/

/-- Steps of a server that nobody shuts down, with clock readings in range and an allocator
that gives the sizes in `allocates`. -/
def Undisturbed (config : ServerConfig) (allocates : Nat → Bool) (state : State) : Label → Prop
  | .manage _ => False
  | .work worker now => now ≤ ServerLayout.maxTimestamp ∧
      ((state.workers worker).phase = .starting → config.chunkBytes ≤ isizeMax →
        allocates config.chunkBytes = true)
  | .abort _ => allocates config.chunkBytes = false
  | .arrive _ | .call _ | .receive _ | .disconnect _ => True

instance (config : ServerConfig) (allocates : Nat → Bool) (state : State) :
    DecidablePred (Undisturbed config allocates state)
  | .manage _ => isFalse id
  | .work worker now => inferInstanceAs (Decidable (now ≤ ServerLayout.maxTimestamp ∧
      ((state.workers worker).phase = .starting → config.chunkBytes ≤ isizeMax →
        allocates config.chunkBytes = true)))
  | .abort _ => inferInstanceAs (Decidable (allocates config.chunkBytes = false))
  | .arrive _ | .call _ | .receive _ | .disconnect _ => isTrue trivial

/-- The stream a request is owed: the exact number of chunks, which hold the exact
number of IDs. -/
def Call.Exact (config : ServerConfig) (call : Call) : Prop :=
  ∃ chunks : List IdChunk, call.received = chunks.map Item.chunk ∧
    chunks.length = chunksFor config.idsPerChunk call.count ∧
    (chunks.flatMap unpack).length = call.count

/-- A buffer of this size is within the bound and the allocator gives it, and a response
channel of this capacity can be opened if one is ever asked for. -/
structure ServerConfig.Sizable (config : ServerConfig) (allocates : Nat → Bool) : Prop where
  fits : config.chunkBytes ≤ isizeMax
  allocated : allocates config.chunkBytes = true
  opens : config.streamBufferSize ≤ maxPermits ∨ config.maxAllowedIds = 0

/-! ## Calm -/

/-- The request asks for a number of IDs the server gives. -/
def Call.InRange (config : ServerConfig) (call : Call) : Prop :=
  0 < call.count ∧ call.count ≤ config.maxAllowedIds

/-- A request without shutdown: it is served, or refused for its count. -/
structure CallCalm (config : ServerConfig) (call : Call) : Prop where
  errorless : ∀ error, Item.error error ∉ call.received ++ call.resp
  unfailing : ∀ remaining error, call.phase ≠ .feeding remaining (.failing error)
  served : call.InRange config → Live config false call
  refused : ¬ call.InRange config →
    call.phase = .arrived ∨ call.phase = .checked ∨ ∃ error, call.phase = .rejected error

structure Calm (config : ServerConfig) (state : State) : Prop where
  alive : state.aborted = false
  accepting : state.shutdown = false
  running : state.cancelled = false
  calls : ∀ index, index < state.arrivals → CallCalm config (state.calls index)

theorem calm_initial (config : ServerConfig) : Calm config (initial config) :=
  ⟨rfl, rfl, rfl, fun _ known => absurd known (Nat.not_lt_zero _)⟩

section Calm

variable {config : ServerConfig} {allocates : Nat → Bool} {state next : State}

/-- Without shutdown every worker is up. -/
theorem Inv.up (inv : Inv config state) (running : state.cancelled = false)
    (fits : config.chunkBytes ≤ isizeMax) (worker : Nat) :
    (state.workers worker).isDown = false ∧ (state.workers worker).phase ≠ .stopping := by
  constructor
  · apply Bool.eq_false_iff.mpr
    intro down
    rcases (inv.workers worker).down down with cancelled | large
    · rw [running] at cancelled
      cases cancelled
    · omega
  · intro stopping
    have phaseOk := (inv.workers worker).phaseOk
    rw [PhaseOk, stopping, running] at phaseOk
    cases phaseOk.1

/-- So every request may be handed over, and none is lost. -/
theorem Inv.mayHandOver (inv : Inv config state) (running : state.cancelled = false)
    (fits : config.chunkBytes ≤ isizeMax) (phase : CallPhase) :
    MayHandOver config state.workers phase := by
  unfold MayHandOver
  split
  · exact ⟨fun _ => fits, fun stopping => absurd stopping (inv.up running fits _).2⟩
  · trivial

theorem Inv.safe (inv : Inv config state) (running : state.cancelled = false)
    (fits : config.chunkBytes ≤ isizeMax) (label : Label) : Safe config state label := by
  cases label with
  | call index => exact inv.mayHandOver running fits _
  | _ => trivial

theorem Inv.not_stranded (inv : Inv config state) (running : state.cancelled = false)
    (fits : config.chunkBytes ≤ isizeMax) (index : Nat) : ¬ Stranded state index := by
  rintro ⟨_, channel, _, _, _, down, _⟩
  rw [(inv.up running fits channel.worker).1] at down
  cases down

theorem Inv.not_misled (inv : Inv config state) (running : state.cancelled = false)
    (fits : config.chunkBytes ≤ isizeMax) (index : Nat) : ¬ Misled config state index := by
  rintro ⟨_, worker, _, _, down | loses⟩
  · rw [(inv.up running fits worker).1] at down
    cases down
  · exact loses (inv.mayHandOver running fits _)

theorem CallCalm.mapChannel {call : Call} (calm : CallCalm config call) (number : Nat)
    (change : ChunkChannel → ChunkChannel) : CallCalm config (call.mapChannel number change) := by
  rcases call.mapChannel_cases number change with
    ⟨_, same⟩ | ⟨remaining, channel, _, at_phase, mapped⟩ |
      ⟨remaining, channel, chunk, _, at_phase, mapped⟩
  · rwa [same]
  · rw [mapped]
    refine ⟨calm.errorless, by simp, fun _ => trivial, fun outside => ?_⟩
    simpa [at_phase] using calm.refused outside
  · rw [mapped]
    refine ⟨calm.errorless, by simp, fun _ => trivial, fun outside => ?_⟩
    simpa [at_phase] using calm.refused outside

/-- A call that moves by itself stays calm. -/
theorem CallMoves.calm {call after : Call} {inflight : BitVec 64} {nextWorker : Nat}
    (buffer : 0 < config.streamBufferSize) (accepting : state.shutdown = false)
    (running : state.cancelled = false) (up : ∀ worker, (state.workers worker).isDown = false)
    (moves : CallMoves config state call after inflight nextWorker)
    (calm : CallCalm config call) : CallCalm config after := by
  have live : after.InRange config → after.count = call.count → Live config false after := by
    intro inside same
    rw [← accepting]
    apply moves.live buffer
    rw [accepting]
    exact calm.served (by rwa [Call.InRange, same] at inside)
  cases moves with
  | refuse at_phase down =>
      rw [accepting] at down
      cases down
  | check at_phase _ =>
      exact ⟨calm.errorless, by simp, fun inside => live inside rfl, fun _ => Or.inr (Or.inl rfl)⟩
  | zero at_phase _ | tooMany at_phase _ _ =>
      exact ⟨calm.errorless, by simp, fun inside => live inside rfl,
        fun _ => Or.inr (Or.inr ⟨_, rfl⟩)⟩
  | cancelled remaining chunkSize at_phase cancelled =>
      rw [running] at cancelled
      cases cancelled
  | down remaining worker chunkSize at_phase down =>
      rw [up worker] at down
      cases down
  | fail remaining error at_phase _ _ => exact absurd at_phase (calm.unfailing remaining error)
  | count at_phase some allowed =>
      exact ⟨calm.errorless, by simp, fun inside => live inside rfl,
        fun outside => absurd ⟨Nat.pos_of_ne_zero some, allowed⟩ outside⟩
  | forward remaining channel chunk at_phase _ _ =>
      refine ⟨?_, by simp, fun inside => live inside rfl, fun outside => ?_⟩
      · intro error member
        simp only [← List.append_assoc, List.mem_append, List.mem_singleton, reduceCtorEq,
          or_false] at member
        exact calm.errorless error (List.mem_append.mpr member)
      · simpa [at_phase] using calm.refused outside
  | _ =>
      refine ⟨calm.errorless, by simp, fun inside => live inside rfl, fun outside => ?_⟩
      simpa [*] using calm.refused outside

/-- One call changes, and stays calm. -/
theorem Calm.updateCall (calm : Calm config state) {index : Nat} {call : Call}
    (calls : next.calls = Function.update state.calls index call)
    (alive : next.aborted = state.aborted) (accepting : next.shutdown = state.shutdown)
    (running : next.cancelled = state.cancelled)
    (known : ∀ other, other < next.arrivals → other = index ∨ other < state.arrivals)
    (after : CallCalm config call) : Calm config next := by
  refine ⟨alive.trans calm.alive, accepting.trans calm.accepting, running.trans calm.running,
    fun other bound => ?_⟩
  rw [calls]
  by_cases same : other = index
  · subst same
    rwa [Function.update_self]
  · rw [Function.update_of_ne same]
    exact calm.calls other ((known other bound).resolve_left same)

/-- A step that is no shutdown keeps the calm. -/
theorem Calm.step (sizable : config.Sizable allocates) (buffer : 0 < config.streamBufferSize)
    (inv : Inv config state) (calm : Calm config state) {label : Label}
    (undisturbed : Undisturbed config allocates state label)
    (stepped : Server.step config state label = some next) : Calm config next := by
  have moves := moves_of_step stepped
  have up := fun worker => (inv.up calm.running sizable.fits worker).1
  cases label with
  | manage => exact undisturbed.elim
  | abort =>
      simp only [Undisturbed, sizable.allocated] at undisturbed
      cases undisturbed
  | arrive count =>
      cases moves with
      | arrive _ bound =>
          refine calm.updateCall rfl rfl rfl rfl (fun other bound => ?_)
            ⟨by simp [Call.absent], by simp, fun inside => ⟨rfl, inside, ?_⟩, fun _ => Or.inl rfl⟩
          · simp only at bound
            omega
          · have admits : 0 < count ∧ count ≤ config.maxAllowedIds := inside
            rcases sizable.opens with fits | none
            · exact fits
            · omega
  | call index =>
      cases moves with
      | call _ after inflight nextWorker moves =>
          have known := inv.lt_arrivals moves.ne_absent
          exact calm.updateCall rfl rfl rfl rfl (fun _ bound => Or.inr bound)
            (moves.calm buffer calm.accepting calm.running up (calm.calls index known))
      | reserve _ remaining worker chunkSize at_phase
      | send _ remaining worker chunkSize at_phase =>
          have known : index < state.arrivals := inv.lt_arrivals fun absent => by
            rw [absent] at at_phase
            cases at_phase
          have before := calm.calls index known
          refine calm.updateCall rfl rfl rfl rfl (fun _ bound => Or.inr bound)
            ⟨before.errorless, by simp, fun _ => trivial, fun outside => ?_⟩
          simpa [at_phase] using before.refused outside
  | receive index =>
      cases moves with
      | receive _ item resp stream connected waiting =>
          have before := calm.calls index (inv.lt_arrivals (ne_absent_of_hasStream stream))
          refine calm.updateCall rfl rfl rfl rfl (fun _ bound => Or.inr bound)
            ⟨?_, before.unfailing, before.served, before.refused⟩
          intro error member
          apply before.errorless error
          rw [waiting]
          simpa using member
  | disconnect index =>
      cases moves with
      | disconnect _ stream connected =>
          have before := calm.calls index (inv.lt_arrivals (ne_absent_of_hasStream stream))
          refine calm.updateCall rfl rfl rfl rfl (fun _ bound => Or.inr bound)
            ⟨?_, before.unfailing, before.served, before.refused⟩
          intro error member
          rw [List.append_nil] at member
          exact before.errorless error (List.mem_append_left _ member)
  | work worker now =>
      obtain ⟨shutdown, cancelled, _, arrivals⟩ := moves.work_frame
      refine ⟨alive_of_step stepped (by simp), shutdown.trans calm.accepting,
        cancelled.trans calm.running, fun index bound => ?_⟩
      rw [arrivals] at bound
      exact moves.work_calls (fun _ number change before => before.mapChannel number change)
        (calm.calls index bound)

/-- Everything that holds of an undisturbed run. -/
structure Steady (config : ServerConfig) (state : State) : Prop where
  inv : Inv config state
  permitted : Permitted state
  owned : Owned config state
  calm : Calm config state
  producing : Producing config state

theorem steady_initial (config : ServerConfig) : Steady config (initial config) :=
  ⟨inv_initial config, permitted_initial config, owned_initial config, calm_initial config,
    producing_initial config⟩

theorem Steady.run (checked : config.Checked) (sizable : config.Sizable allocates)
    (buffer : 0 < config.streamBufferSize) {labels : List Label}
    (undisturbed : Transition.Meets (Server.step config) (Undisturbed config allocates)
      (initial config) labels)
    (ran : Transition.run (Server.step config) (initial config) labels = some next) :
    Steady config next := by
  refine Transition.run_invariant (Steady config) ?_ (steady_initial config) undisturbed ran
  intro state label next steady allowed stepped
  have safe := steady.inv.safe steady.calm.running sizable.fits label
  have readable : Readable label := by
    cases label with
    | work worker now => exact allowed.1
    | _ => trivial
  exact ⟨steady.inv.step checked steady.permitted safe stepped,
    steady.permitted.step steady.inv.absent stepped,
    steady.owned.step checked steady.inv stepped,
    steady.calm.step sizable buffer steady.inv allowed stepped,
    steady.producing.step readable stepped⟩

/-- A calm stream that has ended is exact. -/
theorem CallCalm.exact {cancelled : Bool} {call : Call} (calm : CallCalm config call)
    (ok : CallOk config cancelled call) (ended : call.Ended) : call.Exact config := by
  rcases ok.complete ended with ⟨error, member⟩ | ⟨chunks, ⟨items, _⟩, accounts⟩
  · exact absurd member (calm.errorless error)
  · rw [ended.drained, List.append_nil] at items
    obtain ⟨_, sum, _, number⟩ := accounts.finished
    rw [List.length_map] at number
    refine ⟨chunks, items, number, ?_⟩
    have ids := length_flatMap_ids chunks
    rw [List.flatMap_map] at ids
    exact ids.trans sum

theorem ChunkOk.whole {chunk : IdChunk} (checked : config.Checked) (ok : ChunkOk config chunk) :
    0 < chunk.length ∧ SNOWFLAKE_ID_SIZE ∣ chunk.length ∧ chunk.length ≤ config.chunkBytes := by
  obtain ⟨ids, length, some, few⟩ := ok
  have bytes := checked.chunkBytes_eq
  refine ⟨?_, ⟨ids, by rw [length, Nat.mul_comm]⟩, ?_⟩
  · simp only [SNOWFLAKE_ID_SIZE] at length
    omega
  · rw [length, bytes]
    exact Nat.mul_le_mul_right _ few

/-- Undisturbed streams reach their ends. -/
theorem Steady.canEnd (checked : config.Checked) (fits : config.chunkBytes ≤ isizeMax)
    (positive : 0 < config.idsPerChunk) (buffer : 0 < config.streamBufferSize)
    (steady : Steady config state) {index : Nat} (known : index < state.arrivals)
    (inside : (state.calls index).InRange config)
    (connected : (state.calls index).connected = true) : CanEnd config index state := by
  have live := (steady.calm.calls index known).served inside
  rw [← steady.calm.accepting] at live
  have servable : Servable config index state :=
    ⟨steady.inv, steady.permitted, steady.owned, steady.calm.alive,
      steady.inv.not_stranded steady.calm.running fits index,
      steady.inv.not_misled steady.calm.running fits index, live, connected⟩
  exact servable.canEnd checked positive buffer

end Calm

/-! ## The configurations that stream well -/

end Ferroid.Server
