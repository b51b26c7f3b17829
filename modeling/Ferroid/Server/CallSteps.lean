import Ferroid.Server.Invariant

/-!
Contract: what a change of one call does to the invariant.

Owns the invariant of a call across the steps of its own tasks and across what a
worker does to its chunk channel, and the frame condition under which a worker
does not notice that a call has changed.

Does not own the invariant of the worker that acts (`Server.Preservation`).
-/

namespace Ferroid.Server

open Ferroid.Id
open Ferroid.Generator

/-! ## Frame condition -/

/-- A call changes in a way that a worker does not notice. -/
structure Keeps (worker : Nat) (before after : Call) : Prop where
  linked : ∀ request sender, sender ≠ .dropped → Linked before worker request sender false →
    Linked after worker request sender false
  served : ∀ request, Served before worker request → Served after worker request
  more : ∀ request, Linked before worker request .queued false → MoreToCome before →
    MoreToCome after

theorem Keeps.refl (worker : Nat) (call : Call) : Keeps worker call call :=
  ⟨fun _ _ _ linked => linked, fun _ served => served, fun _ _ more => more⟩

section Frame

variable {worker : Nat} {before after : Call}

/-- The phase is all a worker can see of a call. -/
theorem Keeps.of_phase (phase : after.phase = before.phase) : Keeps worker before after := by
  have channel? : ∀ number, after.channel? number = before.channel? number := by
    intro number
    rw [Call.channel?, Call.channel?, phase]
  have linked : ∀ request sender fed, Linked before worker request sender fed →
      Linked after worker request sender fed := by
    rintro request sender fed ⟨channel, found, rest⟩
    exact ⟨channel, (channel? _).trans found, rest⟩
  refine ⟨fun request sender _ => linked request sender false, ?_, ?_⟩
  · rintro request (served | gone)
    · exact Or.inl (linked _ _ _ served)
    · exact Or.inr (by rwa [Gone, phase])
  · rintro request _ ⟨remaining, channel, at_phase, more⟩
    exact ⟨remaining, channel, phase.trans at_phase, more⟩

/-- A feed task that has no chunk channel and has not returned is known to no
worker. -/
theorem Keeps.of_closed (closed : ∀ number, before.channel? number = none)
    (running : ¬ Gone before) : Keeps worker before after := by
  have unlinked : ∀ request sender fed, ¬ Linked before worker request sender fed := by
    rintro request sender fed ⟨channel, found, _⟩
    rw [closed] at found
    cases found
  refine ⟨fun request sender _ linked => absurd linked (unlinked _ _ _), ?_,
    fun request linked => absurd linked (unlinked _ _ _)⟩
  rintro request (served | gone)
  · exact absurd served (unlinked _ _ _)
  · exact absurd gone running

/-- A call whose channel belongs to one worker may change freely for the others. -/
theorem Keeps.of_linked {owner : Nat} {request : StreamRequest} {sender : Sender} {fed : Bool}
    (linked : Linked before owner request sender fed) (other : worker ≠ owner) :
    Keeps worker before after := by
  refine ⟨fun _ _ _ elsewhere => absurd (elsewhere.unique linked).1 other, ?_,
    fun _ elsewhere => absurd (elsewhere.unique linked).1 other⟩
  rintro _ (served | gone)
  · exact absurd (served.unique linked).1 other
  · exact absurd gone linked.not_gone

/-- A call whose channel is linked to no unanswered request only has to keep its
answered ones. -/
theorem Keeps.of_answered
    (answered : ∀ request sender, sender ≠ .dropped → ¬ Linked before worker request sender false)
    (served : ∀ request, Served before worker request → Served after worker request) :
    Keeps worker before after where
  linked request sender alive linked := absurd linked (answered request sender alive)
  served := served
  more request linked := absurd linked (answered request .queued (by decide))

end Frame

/-! ## The phase of a linked call -/

section Linked

variable {config : ServerConfig} {cancelled : Bool} {call : Call} {worker : Nat}
  {request : StreamRequest} {sender : Sender}

/-- What a link says of the channel the feed task holds. -/
theorem linked_iff {remaining : Nat} {channel : ChunkChannel} {fed : Bool}
    (at_phase : call.phase = .feeding remaining (.receiving channel) ∨
      ∃ chunk, call.phase = .feeding remaining (.forwarding channel chunk)) :
    Linked call worker request sender fed ↔ channel.number = request.channel ∧
      channel.worker = worker ∧ channel.size = request.chunkSize ∧ channel.sender = sender ∧
      channel.fed = fed := by
  constructor
  · rintro ⟨held, found, rest⟩
    obtain ⟨number, _⟩ := channel?_eq_some.mp found
    have here : call.channel? channel.number = some channel :=
      channel?_eq_some.mpr ⟨rfl, remaining, at_phase⟩
    obtain rfl := channel?_unique found here
    exact ⟨number, rest⟩
  · rintro ⟨number, rest⟩
    exact ⟨channel, channel?_eq_some.mpr ⟨number, remaining, at_phase⟩, rest⟩

/-- Until its chunk is sent, a request has a feed task that waits for it. -/
theorem Linked.receiving (ok : CallOk config cancelled call)
    (linked : Linked call worker request sender false) :
    ∃ remaining channel, call.phase = .feeding remaining (.receiving channel) ∧
      channel.number = request.channel ∧ channel.worker = worker ∧
      channel.size = request.chunkSize ∧ channel.sender = sender ∧ channel.fed = false ∧
      channel.queue = [] := by
  obtain ⟨channel, found, isWorker, size, isSender, unfed⟩ := linked
  obtain ⟨number, remaining, at_phase | ⟨chunk, at_phase⟩⟩ := channel?_eq_some.mp found
  · simp only [CallOk, at_phase, StageShape] at ok
    exact ⟨remaining, channel, at_phase, number, isWorker, size, isSender, unfed, ok.1.1 unfed⟩
  · simp only [CallOk, at_phase, StageShape] at ok
    rw [unfed] at ok
    exact absurd ok.1.1 Bool.false_ne_true

theorem Call.mapChannel_receiving {remaining : Nat} {channel : ChunkChannel} {number : Nat}
    (at_phase : call.phase = .feeding remaining (.receiving channel))
    (isNumber : channel.number = number) (change : ChunkChannel → ChunkChannel) :
    call.mapChannel number change =
      { call with phase := .feeding remaining (.receiving (change channel)) } := by
  simp only [Call.mapChannel, at_phase, isNumber, if_true]

theorem Call.mapChannel_forwarding {remaining : Nat} {channel : ChunkChannel} {chunk : IdChunk}
    {number : Nat} (at_phase : call.phase = .feeding remaining (.forwarding channel chunk))
    (isNumber : channel.number = number) (change : ChunkChannel → ChunkChannel) :
    call.mapChannel number change =
      { call with phase := .feeding remaining (.forwarding (change channel) chunk) } := by
  simp only [Call.mapChannel, at_phase, isNumber, if_true]

theorem Call.mapChannel_closed {number : Nat} (closed : call.channel? number = none)
    (change : ChunkChannel → ChunkChannel) : call.mapChannel number change = call := by
  unfold Call.channel? at closed
  unfold Call.mapChannel
  split
  · next at_phase =>
      simp only [at_phase] at closed
      split at closed
      · cases closed
      · next other => rw [if_neg other]
  · next at_phase =>
      simp only [at_phase] at closed
      split at closed
      · cases closed
      · next other => rw [if_neg other]
  · rfl

/-- Everything a change of a channel can do to a call. -/
theorem Call.mapChannel_cases (call : Call) (number : Nat)
    (change : ChunkChannel → ChunkChannel) :
    call.channel? number = none ∧ call.mapChannel number change = call ∨
      (∃ remaining channel, channel.number = number ∧
        call.phase = .feeding remaining (.receiving channel) ∧
        call.mapChannel number change =
          { call with phase := .feeding remaining (.receiving (change channel)) }) ∨
      ∃ remaining channel chunk, channel.number = number ∧
        call.phase = .feeding remaining (.forwarding channel chunk) ∧
        call.mapChannel number change =
          { call with phase := .feeding remaining (.forwarding (change channel) chunk) } := by
  cases found : call.channel? number with
  | none => exact Or.inl ⟨rfl, Call.mapChannel_closed found change⟩
  | some channel =>
      obtain ⟨isNumber, remaining, at_phase | ⟨chunk, at_phase⟩⟩ := channel?_eq_some.mp found
      · exact Or.inr (Or.inl ⟨remaining, channel, isNumber, at_phase,
          Call.mapChannel_receiving at_phase isNumber change⟩)
      · exact Or.inr (Or.inr ⟨remaining, channel, chunk, isNumber, at_phase,
          Call.mapChannel_forwarding at_phase isNumber change⟩)

theorem Call.mapChannel_gone (gone : Gone call) (number : Nat)
    (change : ChunkChannel → ChunkChannel) : call.mapChannel number change = call := by
  apply Call.mapChannel_closed
  rcases gone with at_phase | at_phase <;> simp [Call.channel?, at_phase]

theorem Call.channel?_mapChannel (call : Call) (number : Nat)
    (change : ChunkChannel → ChunkChannel)
    (keepsNumber : ∀ channel, (change channel).number = channel.number) :
    (call.mapChannel number change).channel? number = (call.channel? number).map change := by
  cases found : call.channel? number with
  | none => rw [Call.mapChannel_closed found, found, Option.map_none]
  | some channel =>
      rw [Option.map_some, channel?_eq_some]
      obtain ⟨isNumber, remaining, at_phase | ⟨chunk, at_phase⟩⟩ := channel?_eq_some.mp found
      · rw [Call.mapChannel_receiving at_phase isNumber]
        exact ⟨(keepsNumber channel).trans isNumber, remaining, Or.inl rfl⟩
      · rw [Call.mapChannel_forwarding at_phase isNumber]
        exact ⟨(keepsNumber channel).trans isNumber, remaining, Or.inr ⟨chunk, rfl⟩⟩

/-- Two changes of one channel are one change. -/
theorem Call.mapChannel_mapChannel (call : Call) (number : Nat)
    (first second : ChunkChannel → ChunkChannel)
    (keepsNumber : ∀ channel, (first channel).number = channel.number) :
    (call.mapChannel number first).mapChannel number second =
      call.mapChannel number fun channel => second (first channel) := by
  cases found : call.channel? number with
  | none => rw [Call.mapChannel_closed found, Call.mapChannel_closed found,
      Call.mapChannel_closed found]
  | some channel =>
      obtain ⟨isNumber, remaining, at_phase | ⟨chunk, at_phase⟩⟩ := channel?_eq_some.mp found
      · have after := (keepsNumber channel).trans isNumber
        rw [Call.mapChannel_receiving at_phase isNumber,
          Call.mapChannel_receiving at_phase isNumber, Call.mapChannel_receiving rfl after]
      · have after := (keepsNumber channel).trans isNumber
        rw [Call.mapChannel_forwarding at_phase isNumber,
          Call.mapChannel_forwarding at_phase isNumber, Call.mapChannel_forwarding rfl after]

theorem State.mapChannel_mapChannel (state : State) (request : StreamRequest)
    (first second : ChunkChannel → ChunkChannel)
    (keepsNumber : ∀ channel, (first channel).number = channel.number) :
    (state.mapChannel request first).mapChannel request second =
      state.mapChannel request fun channel => second (first channel) := by
  simp only [State.mapChannel, State.setCall, Function.update_self, Function.update_idem,
    Call.mapChannel_mapChannel _ _ _ _ keepsNumber]

theorem Linked.hold {fed : Bool} (linked : Linked call worker request sender fed) :
    Linked (call.mapChannel request.channel .hold) worker request .held fed := by
  obtain ⟨channel, found, isWorker, size, _, isFed⟩ := linked
  refine ⟨channel.hold, ?_, isWorker, size, rfl, isFed⟩
  rw [Call.channel?_mapChannel call request.channel .hold (fun _ => rfl), found, Option.map_some]

theorem Linked.push {fed : Bool} (linked : Linked call worker request sender fed)
    (chunk : IdChunk) :
    Linked (call.mapChannel request.channel (.push chunk)) worker request sender true := by
  obtain ⟨channel, found, isWorker, size, isSender, _⟩ := linked
  refine ⟨channel.push chunk, ?_, isWorker, size, isSender, rfl⟩
  rw [Call.channel?_mapChannel call request.channel (.push chunk) (fun _ => rfl), found,
    Option.map_some]

end Linked

/-! ## A call's own invariant -/

section CallOk

variable {config : ServerConfig} {cancelled : Bool} {call after : Call}

/-- A feed task moves to another stage and nothing reaches the response channel. -/
theorem CallOk.restage {remaining remaining' : Nat} {stage stage' : Stage}
    (ok : CallOk config cancelled call) (at_phase : call.phase = .feeding remaining stage)
    (phase : after.phase = .feeding remaining' stage') (count : after.count = call.count)
    (connected : after.connected = call.connected) (resp : after.resp = call.resp)
    (received : after.received = call.received)
    (shape : StageShape config stage → StageShape config stage')
    (accounts : ∀ sizes, StageShape config stage →
      StageAccounts config cancelled call.count sizes remaining stage →
      StageAccounts config cancelled call.count sizes remaining' stage') :
    CallOk config cancelled after := by
  simp only [CallOk, at_phase] at ok
  simp only [CallOk, phase, connected, count, Delivered, resp, received]
  refine ⟨shape ok.1, fun isConnected => ?_⟩
  obtain ⟨chunks, delivered, owed⟩ := ok.2 isConnected
  exact ⟨chunks, delivered, accounts _ ok.1 owed⟩

private theorem stageAccounts_cancel {count remaining : Nat} {sizes : List Nat} {stage : Stage}
    (owed : StageAccounts config cancelled count sizes remaining stage) :
    StageAccounts config true count sizes remaining stage := by
  cases stage with
  | top =>
      rcases owed with accounts | ⟨_, more⟩
      · exact Or.inl accounts
      · exact Or.inr ⟨rfl, more⟩
  | checking chunkSize => exact Or.inr rfl
  | receiving channel =>
      simp only [StageAccounts] at owed ⊢
      split
      · next fed => simpa only [fed, if_true] using owed
      · next unfed =>
          simp only [unfed, Bool.false_eq_true, if_false] at owed
          split
          · next dropped =>
              rw [if_pos dropped] at owed
              rcases owed with accounts | ⟨_, more⟩
              · exact Or.inl accounts
              · exact Or.inr ⟨rfl, more⟩
          · next alive => rwa [if_neg alive] at owed
  | picking chunkSize => exact owed
  | sending worker chunkSize => exact owed
  | pushing worker chunkSize => exact owed
  | forwarding channel chunk => exact owed
  | failing error => exact owed

/-- A shutdown can only add excuses. -/
theorem CallOk.cancel (ok : CallOk config cancelled call) : CallOk config true call := by
  cases at_phase : call.phase with
  | feeding remaining stage =>
      simp only [CallOk, at_phase] at ok ⊢
      refine ⟨ok.1, fun connected => ?_⟩
      obtain ⟨chunks, delivered, owed⟩ := ok.2 connected
      exact ⟨chunks, delivered, stageAccounts_cancel owed⟩
  | rejected error => simp only [CallOk, at_phase]
  | panicked => simp only [CallOk, at_phase]
  | _ => simpa only [CallOk, at_phase] using ok

/-- A chunk is sent to a channel that has not had one. -/
theorem CallOk.push {worker : Nat} {request : StreamRequest} {sender : Sender} {chunk : IdChunk}
    (ok : CallOk config cancelled call) (linked : Linked call worker request sender false)
    (alive : sender ≠ .dropped) (chunkOk : ChunkOk config chunk)
    (size : chunkIds chunk = request.chunkSize) :
    CallOk config cancelled (call.mapChannel request.channel (.push chunk)) := by
  obtain ⟨remaining, channel, at_phase, number, _, isSize, isSender, unfed, empty⟩ :=
    linked.receiving ok
  rw [Call.mapChannel_receiving at_phase number]
  refine ok.restage at_phase rfl rfl rfl rfl rfl ?_ ?_
  · intro _
    simp only [StageShape, ChunkChannel.push, empty, List.nil_append, List.mem_singleton,
      List.length_singleton, forall_eq]
    exact ⟨fun unfed => absurd unfed Bool.true_eq_false.mp, le_refl 1, chunkOk⟩
  · intro sizes _ owed
    simpa [StageAccounts, ChunkChannel.push, empty, size, unfed, isSender, alive, isSize] using owed

/-- The sender moves from the queue to the worker. -/
theorem CallOk.hold {worker : Nat} {request : StreamRequest} {sender : Sender}
    (ok : CallOk config cancelled call) (linked : Linked call worker request sender false)
    (alive : sender ≠ .dropped) :
    CallOk config cancelled (call.mapChannel request.channel .hold) := by
  obtain ⟨remaining, channel, at_phase, number, _, isSize, isSender, unfed, empty⟩ :=
    linked.receiving ok
  rw [Call.mapChannel_receiving at_phase number]
  refine ok.restage at_phase rfl rfl rfl rfl rfl (fun shape => shape) ?_
  intro sizes _ owed
  simpa [StageAccounts, ChunkChannel.hold, unfed, isSender, alive] using owed

/-- A sender is dropped without a chunk: nothing was asked for, or the shutdown
takes the blame. -/
theorem CallOk.dropUnfed {worker : Nat} {request : StreamRequest} {sender : Sender}
    (ok : CallOk config cancelled call) (linked : Linked call worker request sender false)
    (alive : sender ≠ .dropped)
    (excuse : request.chunkSize = 0 ∨ cancelled = true ∧ MoreToCome call) :
    CallOk config cancelled (call.mapChannel request.channel .drop) := by
  obtain ⟨remaining, channel, at_phase, number, _, isSize, isSender, unfed, empty⟩ :=
    linked.receiving ok
  rw [Call.mapChannel_receiving at_phase number]
  refine ok.restage at_phase rfl rfl rfl rfl rfl (fun shape => shape) ?_
  intro sizes _ owed
  simp only [StageAccounts, ChunkChannel.drop, unfed, isSender, alive, Bool.false_eq_true,
    if_false, if_true] at owed ⊢
  rcases excuse with nothing | ⟨isCancelled, moreRemaining, moreChannel, morePhase, more⟩
  · rw [isSize, nothing] at owed
    exact Or.inl owed.skip
  · rw [at_phase, CallPhase.feeding.injEq] at morePhase
    exact Or.inr ⟨isCancelled, morePhase.1 ▸ more⟩

/-- A sender is dropped after its chunk was sent. -/
theorem CallOk.dropFed {worker : Nat} {request : StreamRequest}
    (ok : CallOk config cancelled call) (served : Served call worker request) :
    CallOk config cancelled (call.mapChannel request.channel .drop) := by
  rcases served with ⟨channel, found, _, _, _, fed⟩ | gone
  · obtain ⟨number, remaining, at_phase | ⟨chunk, at_phase⟩⟩ := channel?_eq_some.mp found
    · rw [Call.mapChannel_receiving at_phase number]
      refine ok.restage at_phase rfl rfl rfl rfl rfl (fun shape => shape) ?_
      intro sizes _ owed
      simpa [StageAccounts, ChunkChannel.drop, fed] using owed
    · rw [Call.mapChannel_forwarding at_phase number]
      exact ok.restage at_phase rfl rfl rfl rfl rfl (fun shape => shape) fun _ _ owed => owed
  · rwa [Call.mapChannel_gone gone]

/-! ## The steps of a call -/

variable {state : State} {next : Call} {inflight : BitVec 64} {nextWorker : Nat}

/-- The steps of a call keep its invariant. -/
theorem CallMoves.callOk (moves : CallMoves config state call next inflight nextWorker)
    (ok : CallOk config state.cancelled call) : CallOk config state.cancelled next := by
  cases moves with
  | refuse at_phase _ => trivial
  | check at_phase _ =>
      simp only [CallOk, at_phase] at ok ⊢
      exact ok
  | zero at_phase _ => trivial
  | tooMany at_phase _ _ => trivial
  | count at_phase some _ =>
      simp only [CallOk, at_phase] at ok ⊢
      exact ⟨Nat.pos_of_ne_zero some, ok⟩
  | spawn at_phase _ =>
      simp only [CallOk, at_phase] at ok ⊢
      obtain ⟨positive, received, resp⟩ := ok
      exact ⟨trivial, fun _ => ⟨[], ⟨by simp [received, resp], by simp⟩,
        Or.inl (Accounts.start positive)⟩⟩
  | burst at_phase _ => trivial
  | cut remaining at_phase more =>
      refine ok.restage at_phase rfl rfl rfl rfl rfl (fun _ => Nat.min_le_right _ _) ?_
      rintro sizes _ (accounts | ⟨cancelled, _⟩)
      · exact Or.inl (accounts.cut more)
      · exact Or.inr cancelled
  | complete at_phase =>
      simp only [CallOk, at_phase] at ok ⊢
      intro connected
      obtain ⟨chunks, delivered, accounts | ⟨_, more⟩⟩ := ok.2 connected
      · exact Or.inr ⟨chunks, delivered, accounts⟩
      · exact absurd more (Nat.lt_irrefl 0)
  | cancelled remaining chunkSize at_phase _ =>
      exact ok.restage at_phase rfl rfl rfl rfl rfl (fun _ => trivial) fun _ _ _ => trivial
  | proceed remaining chunkSize at_phase running =>
      refine ok.restage at_phase rfl rfl rfl rfl rfl (fun shape => shape) ?_
      rintro sizes _ (accounts | cancelled)
      · exact accounts
      · exact absurd (running.symm.trans cancelled) Bool.false_ne_true
  | pick remaining chunkSize at_phase =>
      exact ok.restage at_phase rfl rfl rfl rfl rfl (fun shape => shape) fun _ _ owed => owed
  | down remaining worker chunkSize at_phase _ =>
      exact ok.restage at_phase rfl rfl rfl rfl rfl (fun _ => trivial) fun _ _ _ => trivial
  | take remaining channel chunk queue at_phase waiting =>
      have onlyOne : StageShape config (.receiving channel) →
          channel.fed = true ∧ queue = [] ∧ ChunkOk config chunk := by
        rintro ⟨unfed, short, chunks⟩
        rw [waiting] at unfed short chunks
        refine ⟨?_, ?_, chunks chunk (by simp)⟩
        · cases isFed : channel.fed with
          | true => rfl
          | false => exact absurd (unfed isFed) (List.cons_ne_nil _ _)
        · exact List.eq_nil_of_length_eq_zero (Nat.le_zero.mp (Nat.le_of_succ_le_succ short))
      refine ok.restage at_phase rfl rfl rfl rfl rfl onlyOne ?_
      intro sizes shape owed
      obtain ⟨fed, none, _⟩ := onlyOne shape
      simpa only [StageAccounts, fed, if_true, waiting, none, List.map_cons, List.map_nil]
        using owed
  | drained remaining channel at_phase empty dropped =>
      refine ok.restage at_phase rfl rfl rfl rfl rfl (fun _ => trivial) ?_
      intro sizes _ owed
      simp only [StageAccounts, empty, dropped, if_true, List.map_nil, List.append_nil] at owed ⊢
      split at owed
      · exact Or.inl owed
      · exact owed
  | forward remaining channel chunk at_phase connected room =>
      simp only [CallOk, at_phase] at ok ⊢
      obtain ⟨⟨fed, empty, chunkOk⟩, delivers⟩ := ok
      refine ⟨⟨fun unfed => ?_, by simp [empty], by simp [empty]⟩, fun _ => ?_⟩
      · exact absurd (fed.symm.trans unfed) Bool.true_eq_false.mp
      obtain ⟨chunks, ⟨items, chunksOk⟩, owed⟩ := delivers connected
      refine ⟨chunks ++ [chunk], ⟨?_, ?_⟩, ?_⟩
      · rw [← List.append_assoc, items, List.map_append, List.map_singleton]
      · intro other member
        rcases List.mem_append.mp member with earlier | last
        · exact chunksOk other earlier
        · rw [List.mem_singleton.mp last]
          exact chunkOk
      · simpa only [StageAccounts, fed, if_true, empty, List.map_nil, List.append_nil,
          List.map_append, List.map_singleton] using owed
  | fail remaining error at_phase connected room =>
      simp only [CallOk]
      exact fun _ => Or.inl ⟨error, by simp⟩
  | giveUp remaining stage at_phase _ gone =>
      simp only [CallOk]
      exact fun connected => absurd (gone.symm.trans connected) Bool.false_ne_true
  | leave at_phase =>
      simp only [CallOk, at_phase] at ok ⊢
      exact ok

/-- The steps of a call go unnoticed by every worker. -/
theorem CallMoves.keeps (moves : CallMoves config state call next inflight nextWorker)
    (ok : CallOk config state.cancelled call) (worker : Nat) : Keeps worker call next := by
  cases moves with
  | take remaining channel chunk queue at_phase waiting =>
      -- a channel with a chunk in it is no longer linked to an unanswered request
      have fed : channel.fed = true := by
        simp only [CallOk, at_phase, StageShape] at ok
        by_contra unfed
        have empty := ok.1.1 (Bool.eq_false_iff.mpr unfed)
        rw [waiting] at empty
        cases empty
      refine .of_answered (fun request sender _ linked => ?_) ?_
      · have unfed := ((linked_iff (Or.inl at_phase)).mp linked).2.2.2.2
        exact absurd (fed.symm.trans unfed) Bool.true_eq_false.mp
      · rintro request (linked | gone)
        · refine Or.inl ((linked_iff (Or.inr ⟨chunk, rfl⟩)).mpr ?_)
          exact (linked_iff (Or.inl at_phase)).mp linked
        · simp [Gone, at_phase] at gone
  | drained remaining channel at_phase empty dropped =>
      have alone : ∀ request sender fed, Linked call worker request sender fed →
          sender = .dropped := by
        intro request sender fed linked
        exact ((linked_iff (Or.inl at_phase)).mp linked).2.2.2.1.symm.trans dropped
      refine .of_answered (fun request sender alive linked => alive (alone _ _ _ linked)) ?_
      rintro request (linked | gone)
      · cases alone _ _ _ linked
      · simp [Gone, at_phase] at gone
  | forward remaining channel chunk at_phase connected room =>
      have same : ∀ request sender fed, Linked call worker request sender fed →
          Linked { call with
            phase := .feeding remaining (.receiving channel)
            resp := call.resp ++ [.chunk chunk] } worker request sender fed :=
        fun request sender fed linked =>
          (linked_iff (Or.inl rfl)).mpr ((linked_iff (Or.inr ⟨chunk, at_phase⟩)).mp linked)
      refine ⟨fun request sender _ => same request sender false, ?_, ?_⟩
      · rintro request (linked | gone)
        · exact Or.inl (same _ _ _ linked)
        · simp [Gone, at_phase] at gone
      · rintro request _ ⟨_, _, receiving, _⟩
        rw [at_phase] at receiving
        cases receiving
  | giveUp remaining stage at_phase sending gone =>
      refine .of_answered ?_ fun _ _ => Or.inr (Or.inl rfl)
      intro request sender _ linked
      obtain ⟨_, channel, receiving, _⟩ := linked.receiving ok
      rcases sending with ⟨_, _, rfl⟩ | ⟨_, rfl⟩ <;>
      · rw [at_phase] at receiving
        cases receiving
  | leave at_phase =>
      refine .of_answered ?_ fun _ _ => Or.inr (Or.inr rfl)
      intro request sender _ linked
      exact linked.not_gone (Or.inl at_phase)
  | _ => exact .of_closed (by simp [Call.channel?, *]) (by simp [Gone, *])

/-- The client takes an item or leaves. -/
theorem CallOk.client {resp received : List Item} {connected : Bool}
    (ok : CallOk config cancelled call) (stream : call.hasStream = true)
    (kept : connected = true → call.connected = true ∧
      received ++ resp = call.received ++ call.resp) :
    CallOk config cancelled
      { call with connected := connected, resp := resp, received := received } := by
  unfold Call.hasStream at stream
  split at stream
  · next remaining stage at_phase =>
      simp only [CallOk, at_phase, Delivered] at ok ⊢
      refine ⟨ok.1, fun isConnected => ?_⟩
      rw [(kept isConnected).2]
      exact ok.2 (kept isConnected).1
  · next at_phase =>
      simp only [CallOk, at_phase, Complete, Delivered] at ok ⊢
      intro isConnected
      rw [(kept isConnected).2]
      exact ok (kept isConnected).1
  · next at_phase =>
      simp only [CallOk, at_phase, Complete, Delivered] at ok ⊢
      intro isConnected
      rw [(kept isConnected).2]
      exact ok (kept isConnected).1
  · cases stream

end CallOk

/-! ## The steps of a worker, as calls see them -/

section Work

variable {config : ServerConfig} {state next : State} {worker : Nat} {now : ServerLayout.Ty}

/-- Dropping an inbox changes calls and nothing else. -/
theorem dropInbox_eq (state : State) (inbox : List WorkRequest) :
    state.dropInbox inbox = { state with calls := (state.dropInbox inbox).calls } := by
  induction inbox generalizing state with
  | nil => rfl
  | cons work rest inductionHypothesis =>
      cases work with
      | stream request => exact inductionHypothesis (state.mapChannel request .drop)
      | shutdown => exact inductionHypothesis state

/-- A worker leaves the counters and flags of the server alone. -/
theorem Moves.work_frame (moves : Moves config state (.work worker now) next) :
    next.shutdown = state.shutdown ∧ next.cancelled = state.cancelled ∧
      next.manager = state.manager ∧ next.arrivals = state.arrivals := by
  cases moves with
  | allocationPanic | stop =>
      rw [dropInbox_eq]
      exact ⟨rfl, rfl, rfl, rfl⟩
  | indexPanic =>
      rw [dropInbox_eq]
      exact ⟨rfl, rfl, rfl, rfl⟩
  | _ => exact ⟨rfl, rfl, rfl, rfl⟩

/-- Only a failed allocation ends the process. -/
theorem Moves.aborted {label : Label} (moves : Moves config state label next)
    (runs : ∀ index, label ≠ .abort index) : next.aborted = state.aborted := by
  cases moves with
  | abort index => exact absurd rfl (runs index)
  | allocationPanic | stop | indexPanic =>
      rw [dropInbox_eq]
      rfl
  | _ => rfl

theorem alive_of_step {label : Label} (stepped : step config state label = some next)
    (runs : ∀ index, label ≠ .abort index) : next.aborted = false :=
  ((moves_of_step stepped).aborted runs).trans (step_eq_some.mp stepped).1

variable {Holds : Call → Prop}
  (stable : ∀ call number change, Holds call → Holds (call.mapChannel number change))

include stable

theorem holds_mapChannel {index : Nat} (holds : Holds (state.calls index))
    (request : StreamRequest) (change : ChunkChannel → ChunkChannel) :
    Holds ((state.mapChannel request change).calls index) := by
  by_cases same : index = request.call
  · subst same
    simp only [State.mapChannel, State.setCall, Function.update_self]
    exact stable _ _ _ holds
  · simpa only [State.mapChannel, State.setCall, Function.update_of_ne same] using holds

theorem holds_dropInbox {index : Nat} (holds : Holds (state.calls index))
    (inbox : List WorkRequest) : Holds ((state.dropInbox inbox).calls index) := by
  induction inbox generalizing state with
  | nil => exact holds
  | cons work rest inductionHypothesis =>
      cases work with
      | stream request => exact inductionHypothesis (holds_mapChannel stable holds request .drop)
      | shutdown => exact inductionHypothesis holds

/-- All a worker can do to a call is change its chunk channel. -/
theorem Moves.work_calls (moves : Moves config state (.work worker now) next) {index : Nat}
    (holds : Holds (state.calls index)) : Holds (next.calls index) := by
  cases moves with
  | work => exact holds
  | allocationPanic | stop => exact holds_dropInbox stable holds _
  | takeStream | finish | pushFull => exact holds_mapChannel stable holds _ _
  | indexPanic => exact holds_dropInbox stable (holds_mapChannel stable holds _ _) _
  | pushRest => exact holds_mapChannel stable (holds_mapChannel stable holds _ _) _ _

end Work

end Ferroid.Server
