import Ferroid.Generator.Status
import Ferroid.Id.Ulid

/-!
Contract: `BasicMonoUlidGenerator` and its runs under an arbitrary clock and an
arbitrary random source.

Owns `from_components`, `poll_id`, the one-poll specification, and the
guarantees of a whole run: order, field contents, the exact Pending condition
and the exact number of random draws.

Does not own the shared generators or the blocking `next_id` loop.
-/

namespace Ferroid.Generator

open Ferroid.Id

/-- The generator; its time source is the clock reading passed to each poll and
its random source the stream passed to a run, of which `drawn` numbers have been
taken. -/
structure BasicMonoUlidGenerator (layout : UlidLayout) where
  state : UlidId layout
  drawn : Nat
deriving DecidableEq, Repr

/-- Outcome of a ULID poll. -/
abbrev UlidPoll (layout : UlidLayout) := Poll (UlidId layout) layout.Ty

variable {layout : UlidLayout}

/-- The common answer of all three generators to a clock behind the state. -/
def coldClockBehindUlid (now currentTs : layout.Ty) : UlidPoll layout :=
  .pending (currentTs - now)

namespace BasicMonoUlidGenerator

def fromComponents (timestamp random : layout.Ty) : BasicMonoUlidGenerator layout :=
  ⟨UlidId.fromComponents timestamp random, 0⟩

def new : BasicMonoUlidGenerator layout :=
  fromComponents 0#(layout.width) 0#(layout.width)

def pollId (rng : Nat → layout.Ty) (self : BasicMonoUlidGenerator layout) (now : layout.Ty) :
    BasicMonoUlidGenerator layout × UlidPoll layout :=
  let state := self.state
  let currentTs := state.timestamp
  match compare now.toNat currentTs.toNat with
  | .eq =>
      if state.hasRandomRoom then
        let updated := state.incrementRandom
        ({ self with state := updated }, .ready updated)
      else
        (self, .pending 1#(layout.width))
  | .gt =>
      let rand := rng self.drawn
      let updated := state.rolloverToTimestamp now rand
      (⟨updated, self.drawn + 1⟩, .ready updated)
  | .lt => (self, coldClockBehindUlid now currentTs)

/-! ## One poll -/

variable {rng : Nat → layout.Ty}

/-- The four outcomes of a poll, with the condition under which each occurs. -/
inductive Polls (rng : Nat → layout.Ty) (self : BasicMonoUlidGenerator layout)
    (now : layout.Ty) : BasicMonoUlidGenerator layout × UlidPoll layout → Prop where
  | increment (same : now = self.state.timestamp) (room : self.state.hasRandomRoom = true) :
      Polls rng self now
        (⟨self.state.incrementRandom, self.drawn⟩, .ready self.state.incrementRandom)
  | exhausted (same : now = self.state.timestamp) (full : self.state.hasRandomRoom = false) :
      Polls rng self now (self, .pending 1#(layout.width))
  | rollover (later : self.state.timestamp < now) :
      Polls rng self now
        (⟨self.state.rolloverToTimestamp now (rng self.drawn), self.drawn + 1⟩,
          .ready (self.state.rolloverToTimestamp now (rng self.drawn)))
  | behind (earlier : now < self.state.timestamp) :
      Polls rng self now (self, coldClockBehindUlid now self.state.timestamp)

theorem polls_pollId (rng : Nat → layout.Ty) (self : BasicMonoUlidGenerator layout)
    (now : layout.Ty) : Polls rng self now (self.pollId rng now) := by
  unfold pollId
  cases order : compare now.toNat self.state.timestamp.toNat with
  | eq =>
      have same : now = self.state.timestamp :=
        BitVec.eq_of_toNat_eq (Nat.compare_eq_eq.mp order)
      cases room : self.state.hasRandomRoom with
      | true => simpa [order, room] using Polls.increment same room
      | false => simpa [order, room] using Polls.exhausted same room
  | gt =>
      have later : self.state.timestamp < now := Nat.compare_eq_gt.mp order
      simpa [order] using Polls.rollover later
  | lt =>
      have earlier : now < self.state.timestamp := Nat.compare_eq_lt.mp order
      simpa [order] using Polls.behind earlier

section OnePoll

variable {self : BasicMonoUlidGenerator layout} {now : layout.Ty}
  {outcome : BasicMonoUlidGenerator layout × UlidPoll layout}

theorem Polls.stored (polls : Polls rng self now outcome) {id : UlidId layout}
    (ready : outcome.2 = .ready id) : outcome.1.state = id := by
  cases polls with
  | increment | rollover => exact Poll.ready.inj ready
  | exhausted | behind => cases ready

theorem Polls.unchanged (polls : Polls rng self now outcome) (pending : outcome.2.IsPending) :
    outcome.1 = self := by
  cases polls with
  | increment | rollover => exact absurd pending (Poll.not_isPending_ready _)
  | exhausted | behind => rfl

theorem Polls.isPending_iff (polls : Polls rng self now outcome) :
    outcome.2.IsPending ↔
      now < self.state.timestamp ∨
        now = self.state.timestamp ∧ self.state.random = layout.maxRandom := by
  have full := self.state.hasRandomRoom_eq_false_iff
  cases polls with
  | increment same room =>
      subst same
      rw [← full]
      simp [Poll.IsPending, room]
  | exhausted same noRoom =>
      rw [← full]
      exact ⟨fun _ => Or.inr ⟨same, noRoom⟩, fun _ => ⟨_, rfl⟩⟩
  | rollover later =>
      refine ⟨fun pending => absurd pending (Poll.not_isPending_ready _), ?_⟩
      rintro (earlier | ⟨same, _⟩)
      · exact absurd later (BitVec.not_lt.mpr (BitVec.le_of_lt earlier))
      · exact absurd same.symm (BitVec.ne_of_lt later)
  | behind earlier => exact ⟨fun _ => Or.inl earlier, fun _ => ⟨_, rfl⟩⟩

theorem Polls.isValid (polls : Polls rng self now outcome)
    (valid : self.state.isValid = true) : outcome.1.state.isValid = true := by
  cases polls with
  | increment same room => exact self.state.isValid_incrementRandom
  | rollover later => exact self.state.isValid_rolloverToTimestamp now _
  | exhausted | behind => exact valid

/-- A Ready ID carries the clock reading of its poll while the reading fits the
field. -/
theorem Polls.timestamp (polls : Polls rng self now outcome)
    (fits : now ≤ layout.maxTimestamp) {id : UlidId layout} (ready : outcome.2 = .ready id) :
    id.timestamp = now := by
  rw [UlidLayout.le_maxTimestamp_iff] at fits
  cases polls with
  | increment same room =>
      cases ready
      rw [(self.state.fields_incrementRandom room).1, same]
  | rollover later =>
      cases ready
      apply BitVec.eq_of_toNat_eq
      rw [UlidId.rolloverToTimestamp, (UlidId.fields_fromComponents now _).1,
        Nat.mod_eq_of_lt fits]
  | exhausted | behind => cases ready

/-- Entering a tick draws one random number and stores it masked. -/
theorem Polls.entered (polls : Polls rng self now outcome)
    (later : self.state.timestamp < now) :
    outcome.1.drawn = self.drawn + 1 ∧
      ∃ id, outcome.2 = .ready id ∧ id.random = rng self.drawn &&& layout.randomMask := by
  cases polls with
  | rollover =>
      refine ⟨rfl, _, rfl, BitVec.eq_of_toNat_eq ?_⟩
      rw [UlidId.rolloverToTimestamp, (UlidId.fields_fromComponents now _).2,
        UlidLayout.randomMask,
        Ferroid.Library.BitField.toNat_and_lowMask layout.random_lt]
  | increment same | exhausted same => exact absurd same.symm (BitVec.ne_of_lt later)
  | behind earlier => exact absurd later (BitVec.not_lt.mpr (BitVec.le_of_lt earlier))

/-- Outside a newly entered tick the random source is left alone, and a Ready ID
has the stored random field plus one. -/
theorem Polls.stayed (polls : Polls rng self now outcome)
    (notLater : ¬ self.state.timestamp < now) :
    outcome.1.drawn = self.drawn ∧
      ∀ id, outcome.2 = .ready id → id.random.toNat = self.state.random.toNat + 1 := by
  cases polls with
  | increment same room =>
      refine ⟨rfl, ?_⟩
      intro id ready
      cases ready
      exact (self.state.fields_incrementRandom room).2
  | rollover later => exact absurd later notLater
  | exhausted | behind =>
      refine ⟨rfl, ?_⟩
      intro id ready
      cases ready

/-- With an in-range reading a Ready ID is greater than the state it replaces. -/
theorem Polls.lt (polls : Polls rng self now outcome) (fits : now ≤ layout.maxTimestamp)
    (valid : self.state.isValid = true) {id : UlidId layout} (ready : outcome.2 = .ready id) :
    self.state < id := by
  have reading := polls.timestamp fits ready
  cases polls with
  | increment same room =>
      cases ready
      obtain ⟨timestamp, random⟩ := self.state.fields_incrementRandom room
      rw [UlidId.lt_iff_of_isValid valid self.state.isValid_incrementRandom, timestamp, random]
      exact Or.inr ⟨rfl, Nat.lt_succ_self _⟩
  | rollover later =>
      cases ready
      rw [UlidId.lt_iff_of_isValid valid (self.state.isValid_rolloverToTimestamp now _), reading]
      exact Or.inl later
  | exhausted | behind => cases ready

end OnePoll

/-! ## Whole runs -/

/-- What holds of every generator of a run: the reserved bits are clear. -/
def Serves (self : BasicMonoUlidGenerator layout) : Prop :=
  self.state.isValid = true

theorem serves_fromComponents (timestamp random : layout.Ty) :
    Serves (fromComponents timestamp random) :=
  UlidId.isValid_fromComponents _ _

theorem Serves.pollId {self : BasicMonoUlidGenerator layout} (serves : Serves self)
    (now : layout.Ty) : Serves (self.pollId rng now).1 :=
  (polls_pollId rng self now).isValid serves

theorem isValid_of_mem_readyIds {self : BasicMonoUlidGenerator layout} (serves : Serves self)
    (readings : List layout.Ty) :
    ∀ id ∈ readyIds (pollAll (pollId rng) self readings), id.isValid = true := by
  intro id member
  obtain ⟨polled, polledMember, ready⟩ := mem_readyIds.mp member
  refine pollAll_forall Serves (fun _ => True)
    (fun polled => ∀ id, polled.result = .ready id → id.isValid = true) ?_ serves
    (fun _ _ => trivial) polled polledMember id ready
  intro generator now good _
  refine ⟨good.pollId now, ?_⟩
  intro answered pollReady
  have kept : Serves (generator.pollId rng now).1 := good.pollId now
  rw [Serves, (polls_pollId rng generator now).stored pollReady] at kept
  exact kept

/-- Consecutive IDs of one tick differ by one in the random field. -/
def NextInTick (previous next : UlidId layout) : Prop :=
  next.timestamp = previous.timestamp → next.random.toNat = previous.random.toNat + 1

theorem Polls.nextInTick {self : BasicMonoUlidGenerator layout} {now : layout.Ty}
    {outcome : BasicMonoUlidGenerator layout × UlidPoll layout}
    (polls : Polls rng self now outcome) (fits : now ≤ layout.maxTimestamp)
    {id : UlidId layout} (ready : outcome.2 = .ready id) : NextInTick self.state id := by
  intro sameTick
  rw [polls.timestamp fits ready] at sameTick
  have notLater : ¬ self.state.timestamp < now := by
    rw [sameTick]
    exact BitVec.lt_irrefl _
  exact (polls.stayed notLater).2 id ready

/-- The rule of `readyIds_chain` for this generator: a relation that every Ready
poll of an in-range reading establishes holds along the run. -/
private theorem ulid_chain_of_ready (Related : UlidId layout → UlidId layout → Prop)
    (related : ∀ (generator : BasicMonoUlidGenerator layout) now id,
      Serves generator → now ≤ layout.maxTimestamp →
      (generator.pollId rng now).2 = .ready id → Related generator.state id)
    {self : BasicMonoUlidGenerator layout} (serves : Serves self)
    {readings : List layout.Ty} (fits : ∀ now ∈ readings, now ≤ layout.maxTimestamp) :
    List.IsChain Related (self.state :: readyIds (pollAll (pollId rng) self readings)) := by
  refine readyIds_chain Serves (fun now => now ≤ layout.maxTimestamp)
    BasicMonoUlidGenerator.state Related ?_ serves fits
  intro generator now good readingFits
  have polls := polls_pollId rng generator now
  refine ⟨good.pollId now, ?_, ?_⟩
  · intro id ready
    exact ⟨polls.stored ready, related generator now id good readingFits ready⟩
  · intro pending
    rw [polls.unchanged pending]

/-- The Ready IDs of a run increase from the initial state on. -/
theorem readyIds_increasing {self : BasicMonoUlidGenerator layout} (serves : Serves self)
    {readings : List layout.Ty} (fits : ∀ now ∈ readings, now ≤ layout.maxTimestamp) :
    (self.state :: readyIds (pollAll (pollId rng) self readings)).Pairwise (· < ·) := by
  refine (ulid_chain_of_ready (fun previous next => previous < next) ?_ serves fits).pairwise
  intro generator now id good readingFits ready
  exact (polls_pollId rng generator now).lt readingFits good ready

theorem readyIds_nextInTick {self : BasicMonoUlidGenerator layout} (serves : Serves self)
    {readings : List layout.Ty} (fits : ∀ now ∈ readings, now ≤ layout.maxTimestamp) :
    List.IsChain NextInTick (self.state :: readyIds (pollAll (pollId rng) self readings)) := by
  refine ulid_chain_of_ready NextInTick ?_ serves fits
  intro generator now id _ readingFits ready
  exact (polls_pollId rng generator now).nextInTick readingFits ready

/-- One poll of a ULID run. -/
abbrev UlidPolled (layout : UlidLayout) :=
  Polled (UlidId layout) layout.Ty (BasicMonoUlidGenerator layout) layout.Ty

/-- The poll found its clock past the stored tick. -/
def Entered (polled : UlidPolled layout) : Prop :=
  polled.before.state.timestamp < polled.now

instance (polled : UlidPolled layout) : Decidable (Entered polled) :=
  inferInstanceAs (Decidable (_ < _))

/-- What one poll of a run guarantees. -/
structure PollOk (rng : Nat → layout.Ty) (polled : UlidPolled layout) : Prop where
  ready : ∀ id, polled.result = .ready id →
    id.reserved = 0#(layout.width) ∧ id.timestamp = polled.now
  entered : Entered polled → polled.after.drawn = polled.before.drawn + 1 ∧
    ∃ id, polled.result = .ready id ∧ id.random = rng polled.before.drawn &&& layout.randomMask
  stayed : ¬ Entered polled → polled.after.drawn = polled.before.drawn ∧
    ∀ id, polled.result = .ready id →
      id.random.toNat = polled.before.state.random.toNat + 1
  pending_iff : polled.result.IsPending ↔
    polled.now < polled.before.state.timestamp ∨
      polled.now = polled.before.state.timestamp ∧
        polled.before.state.random = layout.maxRandom
  unchanged : polled.result.IsPending → polled.after = polled.before

theorem pollAll_pollOk {self : BasicMonoUlidGenerator layout} (serves : Serves self)
    {readings : List layout.Ty} (fits : ∀ now ∈ readings, now ≤ layout.maxTimestamp) :
    ∀ polled ∈ pollAll (pollId rng) self readings, PollOk rng polled := by
  refine pollAll_forall Serves (fun now => now ≤ layout.maxTimestamp) (PollOk rng) ?_ serves fits
  intro generator now good readingFits
  have polls := polls_pollId rng generator now
  have after : Serves (generator.pollId rng now).1 := good.pollId now
  refine ⟨after, ?_, polls.entered, polls.stayed, polls.isPending_iff, polls.unchanged⟩
  intro id ready
  rw [Serves, polls.stored ready] at after
  exact ⟨id.reserved_eq_zero after, polls.timestamp readingFits ready⟩

/-- The polls that enter a tick take the random numbers in order, one each. -/
theorem draws_in_order (rng : Nat → layout.Ty) (self : BasicMonoUlidGenerator layout)
    (readings : List layout.Ty) :
    ((pollAll (pollId rng) self readings).filter (Entered ·)).map
        (fun polled => polled.before.drawn) =
      List.range' self.drawn ((afterAll (pollId rng) self readings).drawn - self.drawn) ∧
    self.drawn ≤ (afterAll (pollId rng) self readings).drawn := by
  induction readings generalizing self with
  | nil => simp [pollAll, afterAll]
  | cons now rest inductionHypothesis =>
      have polls := polls_pollId rng self now
      obtain ⟨continued, more⟩ := inductionHypothesis (self.pollId rng now).1
      by_cases later : self.state.timestamp < now
      · have drawn := (polls.entered later).1
        rw [drawn] at continued more
        simp only [pollAll, afterAll]
        rw [List.filter_cons_of_pos (by rw [decide_eq_true_iff]; exact later),
          List.map_cons, continued]
        refine ⟨?_, by omega⟩
        obtain ⟨count, total⟩ := Nat.exists_eq_add_of_le more
        rw [total, Nat.add_assoc, Nat.add_sub_cancel_left, Nat.add_comm 1 count,
          List.range'_succ, ← Nat.add_assoc, Nat.add_right_comm, Nat.add_sub_cancel_left]
      · have drawn := (polls.stayed later).1
        rw [drawn] at continued more
        simp only [pollAll, afterAll]
        rw [List.filter_cons_of_neg (by rw [decide_eq_true_iff]; exact later)]
        exact ⟨continued, more⟩

/-- A run of polls under any in-range clock and any random source. The initial
components are stored masked, so nothing is asked of them. -/
theorem pollId_mono_run (layout : UlidLayout) (t0 r0 : layout.Ty) (rng : Nat → layout.Ty)
    (readings : List layout.Ty) (fits : ∀ now ∈ readings, now ≤ layout.maxTimestamp) :
    let initial := fromComponents t0 r0
    let trace := pollAll (pollId rng) initial readings
    (readyIds trace).Pairwise (· < ·) ∧
      (∀ id ∈ readyIds trace, initial.state < id) ∧
      List.IsChain NextInTick (initial.state :: readyIds trace) ∧
      (trace.filter (Entered ·)).map (fun polled => polled.before.drawn) =
        List.range (afterAll (pollId rng) initial readings).drawn ∧
      ∀ polled ∈ trace, PollOk rng polled := by
  intro initial trace
  have serves := serves_fromComponents t0 r0
  obtain ⟨above, increasing⟩ := List.pairwise_cons.mp (readyIds_increasing serves fits)
  have draws := (draws_in_order rng initial readings).1
  rw [show initial.drawn = 0 from rfl, Nat.sub_zero, ← List.range_eq_range'] at draws
  exact ⟨increasing, above, readyIds_nextInTick serves fits, draws, pollAll_pollOk serves fits⟩

/-- A first draw at the top of the random field: that tick holds one ID, the
clock falls back, and the next tick starts from the second draw. -/
theorem pollId_mono_run_ulid :
    let rng : Nat → ULID.Ty := fun index => if index = 0 then -1#_ else 9#_
    let initial : BasicMonoUlidGenerator ULID := fromComponents 5#_ 3#_
    let trace := pollAll (pollId rng) initial [5#_, 6#_, 6#_, 4#_, 7#_, 7#_]
    (readyIds trace).map UlidId.random = [4#_, ULID.maxRandom, 9#_, 10#_] ∧
      (readyIds trace).Pairwise (· < ·) := by
  refine ⟨by decide +kernel, ?_⟩
  refine (pollId_mono_run ULID 5#_ 3#_ _ [5#_, 6#_, 6#_, 4#_, 7#_, 7#_] ?_).1
  rw [← List.forall_iff_forall_mem]
  decide +kernel

end BasicMonoUlidGenerator

end Ferroid.Generator
