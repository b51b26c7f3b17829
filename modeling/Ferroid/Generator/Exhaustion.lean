import Ferroid.Generator.Snowflake.Basic
import Ferroid.Generator.Ulid.BasicMono
import Ferroid.Library.TickCounter

/-!
Contract: what happens when the clock passes the timestamp field.

Owns the view of both basic generators as tick counters, for clock readings of
any size, and the exact condition on a non-decreasing clock under which their
Ready IDs keep increasing.

Does not own in-range runs (`BasicSnowflakeGenerator`, `BasicMonoUlidGenerator`).
-/

namespace Ferroid.Generator

open Ferroid.Id
open Ferroid.Library.TickCounter

/-! ## Polled tick counters -/

section Counters

variable {ID Generator : Type} {width : Nat}

/-- What one poll does to a tick counter that has entered `entered` ticks so far.
`stampOf` reads the counter off an ID and `stateOf` off the generator. -/
inductive Counts (ticks counts : Nat) (fresh : Nat → Nat) (stampOf : ID → Stamp)
    (stateOf : Generator → Stamp) (Entered : Generator → Nat → Prop) (generator : Generator)
    (entered : Nat) (now : BitVec width) : Generator × Poll ID (BitVec width) → Prop where
  | increment (next : Generator) (id : ID) (same : now.toNat = (stateOf generator).tick)
      (room : (stateOf generator).count + 1 < counts)
      (stamped : stampOf id = ⟨(stateOf generator).tick, (stateOf generator).count + 1⟩)
      (stored : stateOf next = stampOf id) (keeps : Entered next entered) :
      Counts ticks counts fresh stampOf stateOf Entered generator entered now (next, .ready id)
  | rollover (next : Generator) (id : ID) (later : (stateOf generator).tick < now.toNat)
      (stamped : stampOf id = ⟨now.toNat % ticks, fresh entered⟩)
      (stored : stateOf next = stampOf id) (enters : Entered next (entered + 1)) :
      Counts ticks counts fresh stampOf stateOf Entered generator entered now (next, .ready id)
  | skip (yieldFor : BitVec width)
      (skipped : ¬ Issues counts (stateOf generator) now.toNat) :
      Counts ticks counts fresh stampOf stateOf Entered generator entered now
        (generator, .pending yieldFor)

variable {ticks counts : Nat} {fresh : Nat → Nat} {stampOf : ID → Stamp}
  {poll : Generator → BitVec width → Generator × Poll ID (BitVec width)}

/-- A run of such polls issues the stamps of the tick counter. -/
theorem stamps_of_counts (stateOf : Generator → Stamp) (Entered : Generator → Nat → Prop)
    (polls : ∀ generator entered now, Entered generator entered →
      Counts ticks counts fresh stampOf stateOf Entered generator entered now
        (poll generator now))
    {generator : Generator} {entered : Nat} (start : Entered generator entered)
    (readings : List (BitVec width)) :
    (readyIds (pollAll poll generator readings)).map stampOf =
      issue ticks counts fresh (stateOf generator) entered (readings.map BitVec.toNat) := by
  induction readings generalizing generator entered with
  | nil => rfl
  | cons now rest inductionHypothesis =>
      have counted := polls generator entered now start
      rw [List.map_cons]
      cases outcome : poll generator now with
      | mk next result =>
          rw [outcome] at counted
          cases counted with
          | increment _ id same room stamped stored keeps =>
              rw [readyIds_pollAll_ready (congrArg Prod.snd outcome), outcome, List.map_cons,
                inductionHypothesis keeps, issue_same same room, stored, stamped]
          | rollover _ id later stamped stored enters =>
              rw [readyIds_pollAll_ready (congrArg Prod.snd outcome), outcome, List.map_cons,
                inductionHypothesis enters, issue_later later, stored, stamped]
          | skip yieldFor skipped =>
              rw [readyIds_pollAll_pending ⟨yieldFor, congrArg Prod.snd outcome⟩, outcome,
                inductionHypothesis start, issue_skip skipped]

/-- A reading behind the stored tick gets no stamp. -/
theorem not_issues_of_lt {state : Stamp} {now : Nat} (behind : now < state.tick) :
    ¬ Issues counts state now := by
  unfold Issues
  omega

/-- Nor does one at a tick without room. -/
theorem not_issues_of_full {state : Stamp} (full : ¬ state.count + 1 < counts) :
    ¬ Issues counts state state.tick := by
  unfold Issues
  omega

end Counters

/-! ## Snowflake generators as tick counters -/

namespace BasicSnowflakeGenerator

variable {layout : SnowflakeLayout}

/-- The fields of an ID that change from poll to poll. -/
def stamp (id : SnowflakeId layout) : Stamp := ⟨id.timestamp.toNat, id.sequence.toNat⟩

/-- A run issues the stamps of a tick counter that starts every tick at zero: the
comparison sees the whole reading, the state keeps it masked. -/
theorem stamps_readyIds (self : BasicSnowflakeGenerator layout) (readings : List layout.Ty)
    (entered : Nat) :
    (readyIds (pollAll pollId self readings)).map stamp =
      issue (2 ^ layout.timestampBits) (2 ^ layout.sequenceBits) (fun _ => 0) (stamp self.state)
        entered (readings.map BitVec.toNat) := by
  refine stamps_of_counts (fun self : BasicSnowflakeGenerator layout => stamp self.state)
    (fun _ _ => True) ?_ trivial readings
  intro self entered now _
  have polls := polls_pollId self now
  generalize self.pollId now = outcome at polls
  cases polls with
  | increment same room =>
      obtain ⟨timestamp, _, sequence⟩ := self.state.fields_incrementSequence room
      refine .increment _ _ (congrArg BitVec.toNat same)
        ((SnowflakeId.hasSequenceRoom_iff _).mp room) ?_ rfl trivial
      rw [stamp, timestamp, sequence]
      rfl
  | exhausted same full =>
      have noRoom : ¬ self.state.sequence.toNat + 1 < 2 ^ layout.sequenceBits := by
        rw [← SnowflakeId.hasSequenceRoom_iff, full]
        exact Bool.false_ne_true
      rw [same]
      exact .skip _ (not_issues_of_full noRoom)
  | rollover later =>
      obtain ⟨timestamp, _, sequence⟩ := self.state.fields_rolloverToTimestamp now
      refine .rollover _ _ later ?_ rfl trivial
      rw [stamp, timestamp, sequence]
  | behind earlier => exact .skip _ (not_issues_of_lt earlier)

/-- Ready IDs of one generator compare as their stamps. -/
theorem readyIds_pairwise_iff {machineId : layout.Ty} {self : BasicSnowflakeGenerator layout}
    (serves : Serves machineId self) (readings : List layout.Ty) :
    (readyIds (pollAll pollId self readings)).Pairwise (· < ·) ↔
      ((readyIds (pollAll pollId self readings)).map stamp).Pairwise Stamp.Below := by
  have served := serves_of_mem_readyIds serves readings
  rw [List.pairwise_map]
  apply List.Pairwise.iff_of_mem
  intro left right leftMember rightMember
  obtain ⟨leftValid, leftMachine⟩ := served left leftMember
  obtain ⟨rightValid, rightMachine⟩ := served right rightMember
  have sameMachine : left.machineId.toNat = right.machineId.toNat := by
    rw [show left.machineId = right.machineId from leftMachine.trans rightMachine.symm]
  rw [SnowflakeId.lt_iff_of_isValid leftValid rightValid, sameMachine]
  simp only [Stamp.Below, stamp, lt_irrefl, false_or, true_and]

end BasicSnowflakeGenerator

/-! ## ULID generators as tick counters -/

namespace BasicMonoUlidGenerator

variable {layout : UlidLayout}

def stamp (id : UlidId layout) : Stamp := ⟨id.timestamp.toNat, id.random.toNat⟩

/-- A run issues the stamps of a tick counter that starts a tick at the masked
random number drawn for it. -/
theorem stamps_readyIds (rng : Nat → layout.Ty) (self : BasicMonoUlidGenerator layout)
    (readings : List layout.Ty) :
    (readyIds (pollAll (pollId rng) self readings)).map stamp =
      issue (2 ^ layout.timestampBits) (2 ^ layout.randomBits)
        (fun index => (rng index).toNat % 2 ^ layout.randomBits) (stamp self.state) self.drawn
        (readings.map BitVec.toNat) := by
  refine stamps_of_counts (fun self : BasicMonoUlidGenerator layout => stamp self.state)
    (fun self entered => self.drawn = entered) ?_ rfl readings
  rintro self entered now rfl
  have polls := polls_pollId rng self now
  generalize self.pollId rng now = outcome at polls
  cases polls with
  | increment same room =>
      obtain ⟨timestamp, random⟩ := self.state.fields_incrementRandom room
      refine .increment _ _ (congrArg BitVec.toNat same)
        ((UlidId.hasRandomRoom_iff _).mp room) ?_ rfl rfl
      rw [stamp, timestamp, random]
      rfl
  | exhausted same full =>
      have noRoom : ¬ self.state.random.toNat + 1 < 2 ^ layout.randomBits := by
        rw [← UlidId.hasRandomRoom_iff, full]
        exact Bool.false_ne_true
      rw [same]
      exact .skip _ (not_issues_of_full noRoom)
  | rollover later =>
      obtain ⟨timestamp, random⟩ := UlidId.fields_fromComponents now (rng self.drawn)
      refine .rollover _ _ later ?_ rfl rfl
      rw [UlidId.rolloverToTimestamp, stamp, timestamp, random]
  | behind earlier => exact .skip _ (not_issues_of_lt earlier)

theorem readyIds_pairwise_iff {rng : Nat → layout.Ty} {self : BasicMonoUlidGenerator layout}
    (serves : Serves self) (readings : List layout.Ty) :
    (readyIds (pollAll (pollId rng) self readings)).Pairwise (· < ·) ↔
      ((readyIds (pollAll (pollId rng) self readings)).map stamp).Pairwise Stamp.Below := by
  have valid : ∀ id ∈ readyIds (pollAll (pollId rng) self readings), id.isValid = true :=
    isValid_of_mem_readyIds serves readings
  rw [List.pairwise_map]
  apply List.Pairwise.iff_of_mem
  intro left right leftMember rightMember
  rw [UlidId.lt_iff_of_isValid (valid left leftMember) (valid right rightMember)]
  rfl

end BasicMonoUlidGenerator

/-! ## The exact condition -/

/-- The readings that keep both generators ordered, for an initial state with
timestamp `timestamp` and a tick counter that has room or not: whenever a reading
exceeds the `bits`-bit field, its low bits exceed those of every earlier reading
that yields an ID. A reading yields no ID only below the initial timestamp, or at
it without room. -/
def StaysAbove {width : Nat} (bits : Nat) (timestamp : BitVec width) (room : Bool)
    (readings : List (BitVec width)) : Prop :=
  readings.Pairwise fun earlier later =>
    2 ^ bits ≤ later.toNat →
      (timestamp < earlier ∨ earlier = timestamp ∧ room = true) →
        earlier.toNat % 2 ^ bits < later.toNat % 2 ^ bits

instance {width : Nat} (bits : Nat) (timestamp : BitVec width) (room : Bool)
    (readings : List (BitVec width)) : Decidable (StaysAbove bits timestamp room readings) :=
  inferInstanceAs (Decidable (List.Pairwise _ _))

private theorem staysAbove_iff {width bits counts : Nat} {timestamp : BitVec width} {count : Nat}
    {room : Bool} (room_iff : room = true ↔ count + 1 < counts)
    (readings : List (BitVec width)) :
    StaysAbove bits timestamp room readings ↔
      NoFallBack (2 ^ bits) counts ⟨timestamp.toNat, count⟩ (readings.map BitVec.toNat) := by
  rw [StaysAbove, NoFallBack, List.pairwise_map]
  simp only [Issues, BitVec.lt_def, room_iff, BitVec.toNat_inj]

private theorem sorted_toNat {width : Nat} {readings : List (BitVec width)}
    (sorted : readings.Pairwise (· ≤ ·)) : (readings.map BitVec.toNat).Pairwise (· ≤ ·) :=
  List.pairwise_map.mpr sorted

theorem BasicSnowflakeGenerator.increasing_iff {layout : SnowflakeLayout} {machineId : layout.Ty}
    {self : BasicSnowflakeGenerator layout} (serves : Serves machineId self)
    {readings : List layout.Ty} (sorted : readings.Pairwise (· ≤ ·)) :
    (readyIds (pollAll pollId self readings)).Pairwise (· < ·) ↔
      StaysAbove layout.timestampBits self.state.timestamp self.state.hasSequenceRoom
        readings := by
  have stored : (stamp self.state).tick < 2 ^ layout.timestampBits := self.state.timestamp_lt
  rw [readyIds_pairwise_iff serves, stamps_readyIds self readings 0,
    staysAbove_iff (SnowflakeId.hasSequenceRoom_iff _)]
  exact ⟨noFallBack_of_increasing (fun _ => rfl) stored (sorted_toNat sorted),
    issue_increasing stored (sorted_toNat sorted)⟩

theorem BasicMonoUlidGenerator.increasing_iff {layout : UlidLayout}
    {self : BasicMonoUlidGenerator layout} (serves : Serves self)
    {readings : List layout.Ty} (sorted : readings.Pairwise (· ≤ ·)) :
    (∀ rng, (readyIds (pollAll (pollId rng) self readings)).Pairwise (· < ·)) ↔
      StaysAbove layout.timestampBits self.state.timestamp self.state.hasRandomRoom
        readings := by
  have stored : (stamp self.state).tick < 2 ^ layout.timestampBits := self.state.timestamp_lt
  simp only [readyIds_pairwise_iff serves, stamps_readyIds]
  rw [staysAbove_iff (UlidId.hasRandomRoom_iff _)]
  constructor
  · -- A random source stuck at zero is the one that exposes every fall back.
    intro increasing
    refine noFallBack_of_increasing ?_ stored (sorted_toNat sorted)
      (increasing fun _ => 0#(layout.width))
    intro index
    rw [BitVec.toNat_zero, Nat.zero_mod]
  · intro staysAbove rng
    exact issue_increasing stored (sorted_toNat sorted) staysAbove

/-- Both basic generators over any non-decreasing clock: their Ready IDs are
pairwise different and never smaller than earlier ones exactly when readings past
the timestamp field stay above the earlier ones after masking. -/
theorem uniqueness_past_exhaustion_iff
    (snowflake : SnowflakeLayout) (t0 m s0 : snowflake.Ty) (readings : List snowflake.Ty)
    (sorted : readings.Pairwise (· ≤ ·))
    (ulid : UlidLayout) (u0 r0 : ulid.Ty) (ulidReadings : List ulid.Ty)
    (ulidSorted : ulidReadings.Pairwise (· ≤ ·)) :
    (let initial := BasicSnowflakeGenerator.fromComponents t0 m s0
     ((readyIds (pollAll BasicSnowflakeGenerator.pollId initial readings)).Pairwise (· < ·) ↔
        StaysAbove snowflake.timestampBits initial.state.timestamp
          initial.state.hasSequenceRoom readings)) ∧
      (let initial := BasicMonoUlidGenerator.fromComponents u0 r0
       ((∀ rng, (readyIds (pollAll (BasicMonoUlidGenerator.pollId rng) initial
            ulidReadings)).Pairwise (· < ·)) ↔
          StaysAbove ulid.timestampBits initial.state.timestamp
            initial.state.hasRandomRoom ulidReadings)) := by
  constructor
  · intro initial
    have valid : initial.state.isValid = true := SnowflakeId.isValid_fromComponents _ _ _
    have serves : BasicSnowflakeGenerator.Serves initial.state.machineId initial := ⟨valid, rfl⟩
    exact BasicSnowflakeGenerator.increasing_iff serves sorted
  · intro initial
    exact BasicMonoUlidGenerator.increasing_iff
      (BasicMonoUlidGenerator.serves_fromComponents u0 r0) ulidSorted

/-- A reading past the field whose low bits are still above the earlier one, for
both kinds of generators. -/
theorem uniqueness_past_exhaustion_iff_skip :
    let readings : List SnowflakeTwitterId.Ty := [5#_, SnowflakeTwitterId.maxTimestamp + 7#_]
    let ulidReadings : List ULID.Ty := [5#_, ULID.maxTimestamp + 7#_]
    (readyIds (pollAll BasicSnowflakeGenerator.pollId
        (BasicSnowflakeGenerator.fromComponents 0#_ 1#_ 0#_) readings)).Pairwise (· < ·) ∧
      ∀ rng, (readyIds (pollAll (BasicMonoUlidGenerator.pollId rng)
        (BasicMonoUlidGenerator.fromComponents 0#_ 0#_) ulidReadings)).Pairwise (· < ·) := by
  intro readings ulidReadings
  have both := uniqueness_past_exhaustion_iff SnowflakeTwitterId 0#_ 1#_ 0#_ readings
    (by decide +kernel) ULID 0#_ 0#_ ulidReadings (by decide +kernel)
  constructor
  · apply both.1.mpr
    decide +kernel
  · apply both.2.mpr
    decide +kernel

/-- One millisecond past the 41-bit field a Twitter generator returns one ID twice,
and past the 48-bit field so does a ULID generator whose random source repeats. -/
theorem uniqueness_fails_past_exhaustion :
    let beyond : SnowflakeTwitterId.Ty := SnowflakeTwitterId.maxTimestamp + 1#_
    let beyondUlid : ULID.Ty := ULID.maxTimestamp + 1#_
    ([beyond, beyond].Pairwise (· ≤ ·) ∧
      readyIds (pollAll BasicSnowflakeGenerator.pollId
          (BasicSnowflakeGenerator.fromComponents 0#_ 1#_ 0#_) [beyond, beyond]) =
        [SnowflakeId.fromComponents 0#_ 1#_ 0#_, SnowflakeId.fromComponents 0#_ 1#_ 0#_]) ∧
      [beyondUlid, beyondUlid].Pairwise (· ≤ ·) ∧
      readyIds (pollAll (BasicMonoUlidGenerator.pollId fun _ => 9#_)
          (BasicMonoUlidGenerator.fromComponents 0#_ 0#_) [beyondUlid, beyondUlid]) =
        [UlidId.fromComponents 0#_ 9#_, UlidId.fromComponents 0#_ 9#_] := by
  decide +kernel

end Ferroid.Generator
