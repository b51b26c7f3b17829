import Ferroid.Generator.Status
import Ferroid.Id.Snowflake

/-!
Contract: `BasicSnowflakeGenerator` and its runs under an arbitrary clock.

Owns `from_components`, `poll_id` with its three-way clock comparison, the
one-poll specification, and the guarantees of a whole run: order, field
contents, sequence numbering and the exact Pending condition.

Does not own the shared generators or the blocking `next_id` loop.
-/

namespace Ferroid.Generator

open Ferroid.Id

/-- The generator; its time source is the clock reading passed to each poll. -/
structure BasicSnowflakeGenerator (layout : SnowflakeLayout) where
  state : SnowflakeId layout
deriving DecidableEq, Repr

/-- Outcome of a Snowflake poll. -/
abbrev SnowflakePoll (layout : SnowflakeLayout) := Poll (SnowflakeId layout) layout.Ty

variable {layout : SnowflakeLayout}

/-- The common answer of all three generators to a clock behind the state. -/
def coldClockBehind (now currentTs : layout.Ty) : SnowflakePoll layout :=
  .pending (currentTs - now)

namespace BasicSnowflakeGenerator

def fromComponents (timestamp machineId sequence : layout.Ty) :
    BasicSnowflakeGenerator layout :=
  ⟨SnowflakeId.fromComponents timestamp machineId sequence⟩

def new (machineId : layout.Ty) : BasicSnowflakeGenerator layout :=
  fromComponents 0#(layout.width) machineId 0#(layout.width)

def pollId (self : BasicSnowflakeGenerator layout) (now : layout.Ty) :
    BasicSnowflakeGenerator layout × SnowflakePoll layout :=
  let state := self.state
  let currentTs := state.timestamp
  match compare now.toNat currentTs.toNat with
  | .eq =>
      if state.hasSequenceRoom then
        let updated := state.incrementSequence
        (⟨updated⟩, .ready updated)
      else
        (self, .pending 1#(layout.width))
  | .gt =>
      let updated := state.rolloverToTimestamp now
      (⟨updated⟩, .ready updated)
  | .lt => (self, coldClockBehind now currentTs)

/-! ## One poll -/

/-- The four outcomes of a poll, with the condition under which each occurs. -/
inductive Polls (self : BasicSnowflakeGenerator layout) (now : layout.Ty) :
    BasicSnowflakeGenerator layout × SnowflakePoll layout → Prop where
  | increment (same : now = self.state.timestamp) (room : self.state.hasSequenceRoom = true) :
      Polls self now (⟨self.state.incrementSequence⟩, .ready self.state.incrementSequence)
  | exhausted (same : now = self.state.timestamp) (full : self.state.hasSequenceRoom = false) :
      Polls self now (self, .pending 1#(layout.width))
  | rollover (later : self.state.timestamp < now) :
      Polls self now
        (⟨self.state.rolloverToTimestamp now⟩, .ready (self.state.rolloverToTimestamp now))
  | behind (earlier : now < self.state.timestamp) :
      Polls self now (self, coldClockBehind now self.state.timestamp)

theorem polls_pollId (self : BasicSnowflakeGenerator layout) (now : layout.Ty) :
    Polls self now (self.pollId now) := by
  unfold pollId
  cases order : compare now.toNat self.state.timestamp.toNat with
  | eq =>
      have same : now = self.state.timestamp :=
        BitVec.eq_of_toNat_eq (Nat.compare_eq_eq.mp order)
      cases room : self.state.hasSequenceRoom with
      | true => simpa [order, room] using Polls.increment same room
      | false => simpa [order, room] using Polls.exhausted same room
  | gt =>
      have later : self.state.timestamp < now := Nat.compare_eq_gt.mp order
      simpa [order] using Polls.rollover later
  | lt =>
      have earlier : now < self.state.timestamp := Nat.compare_eq_lt.mp order
      simpa [order] using Polls.behind earlier

section OnePoll

variable {self : BasicSnowflakeGenerator layout} {now : layout.Ty}
  {outcome : BasicSnowflakeGenerator layout × SnowflakePoll layout}

theorem Polls.stored (polls : Polls self now outcome) {id : SnowflakeId layout}
    (ready : outcome.2 = .ready id) : outcome.1.state = id := by
  cases polls with
  | increment | rollover => exact Poll.ready.inj ready
  | exhausted | behind => cases ready

theorem Polls.unchanged (polls : Polls self now outcome) (pending : outcome.2.IsPending) :
    outcome.1 = self := by
  cases polls with
  | increment | rollover => exact absurd pending (Poll.not_isPending_ready _)
  | exhausted | behind => rfl

theorem Polls.isPending_iff (polls : Polls self now outcome) :
    outcome.2.IsPending ↔
      now < self.state.timestamp ∨
        now = self.state.timestamp ∧ self.state.sequence = layout.maxSequence := by
  have full := self.state.hasSequenceRoom_eq_false_iff
  cases polls with
  | increment same room =>
      subst same
      rw [← full]
      simp [Poll.IsPending, room]
  | exhausted same noRoom =>
      rw [← full]
      exact ⟨fun _ => Or.inr ⟨same, noRoom⟩, fun _ => ⟨_, rfl⟩⟩
  | rollover later =>
      refine ⟨fun pending => absurd pending (Poll.not_isPending_ready _), ?_⟩
      rintro (earlier | ⟨same, _⟩)
      · exact absurd later (BitVec.not_lt.mpr (BitVec.le_of_lt earlier))
      · exact absurd same.symm (BitVec.ne_of_lt later)
  | behind earlier => exact ⟨fun _ => Or.inl earlier, fun _ => ⟨_, rfl⟩⟩

/-- The machine field survives every poll, whatever the clock reads. -/
theorem Polls.machineId (polls : Polls self now outcome) :
    outcome.1.state.machineId = self.state.machineId := by
  cases polls with
  | increment same room => exact (self.state.fields_incrementSequence room).2.1
  | rollover later => exact (self.state.fields_rolloverToTimestamp now).2.1
  | exhausted | behind => rfl

theorem Polls.isValid (polls : Polls self now outcome) (valid : self.state.isValid = true) :
    outcome.1.state.isValid = true := by
  cases polls with
  | increment same room => exact self.state.isValid_incrementSequence
  | rollover later => exact self.state.isValid_rolloverToTimestamp now
  | exhausted | behind => exact valid

/-- A Ready ID carries the clock reading of its poll while the reading fits the
field. -/
theorem Polls.timestamp (polls : Polls self now outcome) (fits : now ≤ layout.maxTimestamp)
    {id : SnowflakeId layout} (ready : outcome.2 = .ready id) : id.timestamp = now := by
  rw [SnowflakeLayout.le_maxTimestamp_iff] at fits
  cases polls with
  | increment same room =>
      cases ready
      rw [(self.state.fields_incrementSequence room).1, same]
  | rollover later =>
      cases ready
      apply BitVec.eq_of_toNat_eq
      rw [(self.state.fields_rolloverToTimestamp now).1, Nat.mod_eq_of_lt fits]
  | exhausted | behind => cases ready

/-- The numbering of consecutive IDs: one more within a tick, zero at the first
ID of another tick. -/
def NextInTick (previous next : SnowflakeId layout) : Prop :=
  if next.timestamp = previous.timestamp then
    next.sequence.toNat = previous.sequence.toNat + 1
  else
    next.sequence = 0#(layout.width)

theorem Polls.nextInTick (polls : Polls self now outcome) (fits : now ≤ layout.maxTimestamp)
    {id : SnowflakeId layout} (ready : outcome.2 = .ready id) : NextInTick self.state id := by
  have reading := polls.timestamp fits ready
  cases polls with
  | increment same room =>
      cases ready
      rw [NextInTick, if_pos (reading.trans same)]
      exact (self.state.fields_incrementSequence room).2.2
  | rollover later =>
      cases ready
      rw [NextInTick, if_neg]
      · exact BitVec.eq_of_toNat_eq (self.state.fields_rolloverToTimestamp now).2.2
      · rw [reading]
        exact (BitVec.ne_of_lt later).symm
  | exhausted | behind => cases ready

/-- With an in-range reading a Ready ID is greater than the state it replaces. -/
theorem Polls.lt (polls : Polls self now outcome) (fits : now ≤ layout.maxTimestamp)
    (valid : self.state.isValid = true) {id : SnowflakeId layout}
    (ready : outcome.2 = .ready id) : self.state < id := by
  have reading := polls.timestamp fits ready
  cases polls with
  | increment same room =>
      cases ready
      obtain ⟨timestamp, machine, sequence⟩ := self.state.fields_incrementSequence room
      rw [SnowflakeId.lt_iff_of_isValid valid self.state.isValid_incrementSequence, timestamp,
        machine, sequence]
      exact Or.inr ⟨rfl, Or.inr ⟨rfl, Nat.lt_succ_self _⟩⟩
  | rollover later =>
      cases ready
      rw [SnowflakeId.lt_iff_of_isValid valid (self.state.isValid_rolloverToTimestamp now),
        reading]
      exact Or.inl later
  | exhausted | behind => cases ready

end OnePoll

/-! ## Whole runs -/

/-- What holds of every generator of a run: a valid state of machine `machineId`. -/
def Serves (machineId : layout.Ty) (self : BasicSnowflakeGenerator layout) : Prop :=
  self.state.isValid = true ∧ self.state.machineId = machineId

theorem serves_fromComponents (timestamp machineId sequence : layout.Ty)
    (fits : machineId ≤ layout.maxMachineId) :
    Serves machineId (fromComponents timestamp machineId sequence) := by
  rw [SnowflakeLayout.le_maxMachineId_iff] at fits
  refine ⟨SnowflakeId.isValid_fromComponents _ _ _, BitVec.eq_of_toNat_eq ?_⟩
  rw [fromComponents, (SnowflakeId.fields_fromComponents _ _ _).2.1, Nat.mod_eq_of_lt fits]

theorem Serves.pollId {machineId : layout.Ty} {self : BasicSnowflakeGenerator layout}
    (serves : Serves machineId self) (now : layout.Ty) :
    Serves machineId (self.pollId now).1 :=
  ⟨(polls_pollId self now).isValid serves.1, (polls_pollId self now).machineId.trans serves.2⟩

/-- Every Ready ID is a state the generator has had, whatever the clock reads. -/
theorem serves_of_mem_readyIds {machineId : layout.Ty} {self : BasicSnowflakeGenerator layout}
    (serves : Serves machineId self) (readings : List layout.Ty) :
    ∀ id ∈ readyIds (pollAll pollId self readings), Serves machineId ⟨id⟩ := by
  intro id member
  obtain ⟨polled, polledMember, ready⟩ := mem_readyIds.mp member
  refine pollAll_forall (Serves machineId) (fun _ => True)
    (fun polled => ∀ id, polled.result = .ready id → Serves machineId ⟨id⟩) ?_ serves
    (fun _ _ => trivial) polled polledMember id ready
  intro generator now good _
  refine ⟨good.pollId now, ?_⟩
  intro answered pollReady
  have stored := (polls_pollId generator now).stored pollReady
  exact stored ▸ good.pollId now

/-- The rule of `readyIds_chain` for this generator: a relation that every Ready
poll of an in-range reading establishes holds along the run. -/
private theorem chain_of_ready {machineId : layout.Ty}
    (Related : SnowflakeId layout → SnowflakeId layout → Prop)
    (related : ∀ (generator : BasicSnowflakeGenerator layout) now id,
      Serves machineId generator → now ≤ layout.maxTimestamp →
      (generator.pollId now).2 = .ready id → Related generator.state id)
    {self : BasicSnowflakeGenerator layout} (serves : Serves machineId self)
    {readings : List layout.Ty} (fits : ∀ now ∈ readings, now ≤ layout.maxTimestamp) :
    List.IsChain Related (self.state :: readyIds (pollAll pollId self readings)) := by
  refine readyIds_chain (Serves machineId) (fun now => now ≤ layout.maxTimestamp)
    BasicSnowflakeGenerator.state Related ?_ serves fits
  intro generator now good readingFits
  have polls := polls_pollId generator now
  refine ⟨good.pollId now, ?_, ?_⟩
  · intro id ready
    exact ⟨polls.stored ready, related generator now id good readingFits ready⟩
  · intro pending
    rw [polls.unchanged pending]

/-- The Ready IDs of a run increase from the initial state on. -/
theorem readyIds_increasing {machineId : layout.Ty} {self : BasicSnowflakeGenerator layout}
    (serves : Serves machineId self) {readings : List layout.Ty}
    (fits : ∀ now ∈ readings, now ≤ layout.maxTimestamp) :
    (self.state :: readyIds (pollAll pollId self readings)).Pairwise (· < ·) := by
  refine (chain_of_ready (fun previous next => previous < next) ?_ serves fits).pairwise
  intro generator now id good readingFits ready
  exact (polls_pollId generator now).lt readingFits good.1 ready

theorem readyIds_nextInTick {machineId : layout.Ty} {self : BasicSnowflakeGenerator layout}
    (serves : Serves machineId self) {readings : List layout.Ty}
    (fits : ∀ now ∈ readings, now ≤ layout.maxTimestamp) :
    List.IsChain NextInTick (self.state :: readyIds (pollAll pollId self readings)) := by
  refine chain_of_ready NextInTick ?_ serves fits
  intro generator now id _ readingFits ready
  exact (polls_pollId generator now).nextInTick readingFits ready

/-- What one poll of a run guarantees. -/
structure PollOk (machineId : layout.Ty)
    (polled : Polled (SnowflakeId layout) layout.Ty (BasicSnowflakeGenerator layout) layout.Ty) :
    Prop where
  ready : ∀ id, polled.result = .ready id →
    id.reserved = 0#(layout.width) ∧ id.machineId = machineId ∧ id.timestamp = polled.now
  pending_iff : polled.result.IsPending ↔
    polled.now < polled.before.state.timestamp ∨
      polled.now = polled.before.state.timestamp ∧
        polled.before.state.sequence = layout.maxSequence
  unchanged : polled.result.IsPending → polled.after = polled.before

theorem pollAll_pollOk {machineId : layout.Ty} {self : BasicSnowflakeGenerator layout}
    (serves : Serves machineId self) {readings : List layout.Ty}
    (fits : ∀ now ∈ readings, now ≤ layout.maxTimestamp) :
    ∀ polled ∈ pollAll pollId self readings, PollOk machineId polled := by
  refine pollAll_forall (Serves machineId) (fun now => now ≤ layout.maxTimestamp)
    (PollOk machineId) ?_ serves fits
  intro generator now good readingFits
  have polls := polls_pollId generator now
  have after := good.pollId now
  refine ⟨after, ?_, polls.isPending_iff, polls.unchanged⟩
  intro id ready
  have stored := polls.stored ready
  rw [Serves, stored] at after
  exact ⟨id.reserved_eq_zero after.1, after.2, polls.timestamp readingFits ready⟩

/-- A run of polls under any in-range clock, forwards, backwards or standing
still. The initial timestamp and sequence are stored masked, so nothing is asked
of them. -/
theorem pollId_run (layout : SnowflakeLayout) (t0 m s0 : layout.Ty)
    (machineFits : m ≤ layout.maxMachineId) (readings : List layout.Ty)
    (fits : ∀ now ∈ readings, now ≤ layout.maxTimestamp) :
    let initial := fromComponents t0 m s0
    let trace := pollAll pollId initial readings
    (readyIds trace).Pairwise (· < ·) ∧
      (∀ id ∈ readyIds trace, initial.state < id) ∧
      List.IsChain NextInTick (initial.state :: readyIds trace) ∧
      ∀ polled ∈ trace, PollOk m polled := by
  have serves := serves_fromComponents t0 m s0 machineFits
  obtain ⟨above, increasing⟩ := List.pairwise_cons.mp (readyIds_increasing serves fits)
  exact ⟨increasing, above, readyIds_nextInTick serves fits, pollAll_pollOk serves fits⟩

/-- One ID before exhaustion, a clock that stalls, advances and falls back:
three Ready IDs out of six polls. -/
theorem pollId_run_twitter :
    let initial : BasicSnowflakeGenerator SnowflakeTwitterId := fromComponents 5#_ 3#_ 4094#_
    let trace := pollAll pollId initial [5#_, 5#_, 4#_, 7#_, 7#_, 6#_]
    (readyIds trace).length = 3 ∧ (readyIds trace).Pairwise (· < ·) := by
  refine ⟨by decide +kernel, ?_⟩
  refine (pollId_run SnowflakeTwitterId 5#_ 3#_ 4094#_ (by decide +kernel)
    [5#_, 5#_, 4#_, 7#_, 7#_, 6#_] ?_).1
  rw [← List.forall_iff_forall_mem]
  decide +kernel

end BasicSnowflakeGenerator

end Ferroid.Generator
