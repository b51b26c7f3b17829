import Mathlib.Data.List.Count
import Ferroid.Generator.Exhaustion

/-!
Contract: how many IDs a generator issues in one tick, and which.

Owns the exact output of both basic generators for every tick of a non-decreasing clock
within the timestamp field: one ID for each poll until the counter of the tick is used
up, without a gap and without a repetition, and none after that.

Does not own clocks that go back or leave the field (`Generator.Exhaustion`).
-/

namespace Ferroid.Generator

open Ferroid.Id
open Ferroid.Library.TickCounter

/-! ## From stamps to IDs -/

section Stamps

variable {ID : Type} {width : Nat} {ids : List ID} {timestamp : ID → BitVec width}

/-- The IDs of a tick, where a stamp tells the ID. -/
theorem filter_ids_eq (stampOf : ID → Stamp) (idOf : Stamp → ID)
    (back : ∀ id ∈ ids, idOf (stampOf id) = id)
    (isTick : ∀ id, (stampOf id).tick = (timestamp id).toNat) (tick : BitVec width) :
    (ids.filter fun id => timestamp id = tick) =
      ((ids.map stampOf).filter fun stamp => stamp.tick = tick.toNat).map idOf := by
  rw [List.filter_map, List.map_map]
  have sameIds : (ids.filter fun id => timestamp id = tick) =
      ids.filter ((fun stamp : Stamp => decide (stamp.tick = tick.toNat)) ∘ stampOf) := by
    apply List.filter_congr
    intro id _
    rw [Function.comp_apply, isTick, decide_eq_decide, BitVec.toNat_inj]
  rw [← sameIds]
  conv_lhs => rw [← List.map_id (ids.filter fun id => timestamp id = tick)]
  apply List.map_congr_left
  intro id member
  exact (back id (List.mem_of_mem_filter member)).symm

theorem count_toNat (readings : List (BitVec width)) (tick : BitVec width) :
    (readings.map BitVec.toNat).count tick.toNat = readings.count tick :=
  List.count_map_of_injective readings BitVec.toNat (fun _ _ => BitVec.eq_of_toNat_eq) tick

end Stamps

/-! ## One tick -/

/-- The ID with a stamp. -/
def BasicSnowflakeGenerator.ofStamp {layout : SnowflakeLayout} (machineId : layout.Ty)
    (stamp : Stamp) : SnowflakeId layout :=
  SnowflakeId.fromComponents (BitVec.ofNat layout.width stamp.tick) machineId
    (BitVec.ofNat layout.width stamp.count)

/-- The IDs of a tick that counts from zero. -/
theorem BasicSnowflakeGenerator.filter_readyIds {layout : SnowflakeLayout} {machineId : layout.Ty}
    {self : BasicSnowflakeGenerator layout} (serves : Serves machineId self)
    {readings : List layout.Ty} (sorted : readings.Pairwise (· ≤ ·))
    (inRange : ∀ now ∈ readings, now ≤ layout.maxTimestamp) {tick : layout.Ty}
    (later : self.state.timestamp < tick) :
    ((readyIds (pollAll pollId self readings)).filter fun id => id.timestamp = tick) =
      (List.range (min (readings.count tick) (2 ^ layout.sequenceBits))).map fun index =>
        SnowflakeId.fromComponents tick machineId (BitVec.ofNat layout.width index) := by
  have served := serves_of_mem_readyIds serves readings
  have back : ∀ id ∈ readyIds (pollAll pollId self readings),
      ofStamp machineId (stamp id) = id := by
    intro id member
    obtain ⟨valid, machine⟩ := served id member
    simp only [ofStamp, stamp, BitVec.ofNat_toNat, BitVec.setWidth_eq]
    rw [← machine]
    exact id.fromComponents_fields valid
  have fits : ∀ now ∈ readings.map BitVec.toNat, now < 2 ^ layout.timestampBits := by
    rw [List.forall_mem_map]
    exact fun now member => (SnowflakeLayout.le_maxTimestamp_iff now).mp (inRange now member)
  have issued := @filter_issue_later _ (2 ^ layout.sequenceBits) (fun _ => 0)
    (fun _ => Nat.two_pow_pos _) (stamp self.state) 0 tick.toNat later _
    (List.pairwise_map.mpr sorted) fits
  rw [filter_ids_eq stamp _ back (fun _ => rfl) tick, stamps_readyIds self readings 0, issued,
    countUp, count_toNat, List.map_map]
  apply List.map_congr_left
  intro count _
  simp only [Function.comp_apply, ofStamp, BitVec.ofNat_toNat, BitVec.setWidth_eq, Nat.zero_add]

/-- The ID with a stamp. -/
def BasicMonoUlidGenerator.ofStamp {layout : UlidLayout} (stamp : Stamp) : UlidId layout :=
  UlidId.fromComponents (BitVec.ofNat layout.width stamp.tick)
    (BitVec.ofNat layout.width stamp.count)

/-- Which of its draws a run uses for a tick: one for each tick that it enters before. -/
def BasicMonoUlidGenerator.drawOf {layout : UlidLayout} (self : BasicMonoUlidGenerator layout)
    (readings : List layout.Ty) (tick : layout.Ty) : Nat :=
  self.drawn + ticksBefore tick.toNat self.state.timestamp.toNat (readings.map BitVec.toNat)

/-- Every tick has a draw of its own. -/
theorem BasicMonoUlidGenerator.drawOf_lt {layout : UlidLayout}
    (self : BasicMonoUlidGenerator layout) {readings : List layout.Ty}
    (sorted : readings.Pairwise (· ≤ ·)) {tick later : layout.Ty}
    (fresh : self.state.timestamp < tick) (less : tick < later) (read : tick ∈ readings) :
    self.drawOf readings tick < self.drawOf readings later := by
  have fewer := ticksBefore_lt (List.pairwise_map.mpr sorted) fresh less
    (List.mem_map_of_mem read)
  exact Nat.add_lt_add_left fewer _

/-- The IDs of a tick that counts from a random number. -/
theorem BasicMonoUlidGenerator.filter_readyIds {layout : UlidLayout} (rng : Nat → layout.Ty)
    {self : BasicMonoUlidGenerator layout} (serves : Serves self)
    {readings : List layout.Ty} (sorted : readings.Pairwise (· ≤ ·))
    (inRange : ∀ now ∈ readings, now ≤ layout.maxTimestamp) {tick : layout.Ty}
    (later : self.state.timestamp < tick) :
    ((readyIds (pollAll (pollId rng) self readings)).filter fun id => id.timestamp = tick) =
      (List.range (min (readings.count tick) (2 ^ layout.randomBits -
        (rng (self.drawOf readings tick)).toNat % 2 ^ layout.randomBits))).map fun count =>
          UlidId.fromComponents tick (BitVec.ofNat layout.width
            ((rng (self.drawOf readings tick)).toNat % 2 ^ layout.randomBits + count)) := by
  have back : ∀ id ∈ readyIds (pollAll (pollId rng) self readings), ofStamp (stamp id) = id := by
    intro id member
    simp only [ofStamp, stamp, BitVec.ofNat_toNat, BitVec.setWidth_eq]
    exact id.fromComponents_fields (isValid_of_mem_readyIds serves readings id member)
  have fits : ∀ now ∈ readings.map BitVec.toNat, now < 2 ^ layout.timestampBits := by
    rw [List.forall_mem_map]
    exact fun now member => (UlidLayout.le_maxTimestamp_iff now).mp (inRange now member)
  have issued := @filter_issue_later _ (2 ^ layout.randomBits)
    (fun index => (rng index).toNat % 2 ^ layout.randomBits)
    (fun _ => Nat.mod_lt _ (Nat.two_pow_pos _)) (stamp self.state) self.drawn tick.toNat later _
    (List.pairwise_map.mpr sorted) fits
  rw [filter_ids_eq stamp _ back (fun _ => rfl) tick, stamps_readyIds rng self readings, issued,
    countUp, count_toNat, List.map_map]
  apply List.map_congr_left
  intro count _
  simp only [Function.comp_apply, ofStamp, BitVec.ofNat_toNat, BitVec.setWidth_eq, drawOf]
  rfl

/-- Both basic generators over any non-decreasing clock in range: a tick after the initial
one gets an ID for each of its polls, counted up from zero or from the random number that
was drawn for it, until the counter is used up. No two ticks share a draw. -/
theorem tick_output_exact
    (snowflake : SnowflakeLayout) (t0 m s0 : snowflake.Ty) (machineFits : m ≤ snowflake.maxMachineId)
    (readings : List snowflake.Ty) (sorted : readings.Pairwise (· ≤ ·))
    (inRange : ∀ now ∈ readings, now ≤ snowflake.maxTimestamp)
    (ulid : UlidLayout) (u0 r0 : ulid.Ty) (rng : Nat → ulid.Ty) (ulidReadings : List ulid.Ty)
    (ulidSorted : ulidReadings.Pairwise (· ≤ ·))
    (ulidInRange : ∀ now ∈ ulidReadings, now ≤ ulid.maxTimestamp) :
    (let initial := BasicSnowflakeGenerator.fromComponents t0 m s0
     ∀ tick, initial.state.timestamp < tick →
      ((readyIds (pollAll BasicSnowflakeGenerator.pollId initial readings)).filter fun id =>
          id.timestamp = tick) =
        (List.range (min (readings.count tick) (2 ^ snowflake.sequenceBits))).map fun index =>
          SnowflakeId.fromComponents tick m (BitVec.ofNat snowflake.width index)) ∧
      (let initial := BasicMonoUlidGenerator.fromComponents u0 r0
       ∀ tick, initial.state.timestamp < tick →
        ((readyIds (pollAll (BasicMonoUlidGenerator.pollId rng) initial ulidReadings)).filter
            fun id => id.timestamp = tick) =
          (List.range (min (ulidReadings.count tick) (2 ^ ulid.randomBits -
            (rng (initial.drawOf ulidReadings tick)).toNat % 2 ^ ulid.randomBits))).map
              (fun count => UlidId.fromComponents tick (BitVec.ofNat ulid.width
                ((rng (initial.drawOf ulidReadings tick)).toNat % 2 ^ ulid.randomBits +
                  count))) ∧
          (tick ∈ ulidReadings → ∀ later, tick < later →
            initial.drawOf ulidReadings tick < initial.drawOf ulidReadings later)) := by
  constructor
  · intro initial tick later
    exact BasicSnowflakeGenerator.filter_readyIds
      (BasicSnowflakeGenerator.serves_fromComponents t0 m s0 machineFits) sorted inRange later
  · intro initial tick later
    refine ⟨BasicMonoUlidGenerator.filter_readyIds rng
      (BasicMonoUlidGenerator.serves_fromComponents u0 r0) ulidSorted ulidInRange later, ?_⟩
    intro read next less
    exact initial.drawOf_lt ulidSorted later less read

/-- A layout with room for two IDs in a tick. -/
def twoPerTick : SnowflakeLayout := ⟨8, 0, 4, 3, 1, rfl, by decide, by decide⟩

/-- Three polls in a tick with room for two; a ULID tick that starts at its end. -/
theorem tick_output_exact_full :
    (readyIds (pollAll BasicSnowflakeGenerator.pollId
        (BasicSnowflakeGenerator.fromComponents 0#_ 3#_ 0#_ : BasicSnowflakeGenerator twoPerTick)
        [5#_, 5#_, 5#_])).filter (fun id => id.timestamp = 5#_) =
      [SnowflakeId.fromComponents 5#_ 3#_ 0#_, SnowflakeId.fromComponents 5#_ 3#_ 1#_] ∧
      ((readyIds (pollAll (BasicMonoUlidGenerator.pollId fun _ => ULID.maxRandom)
        (BasicMonoUlidGenerator.fromComponents 0#_ 0#_) [5#_, 5#_, 5#_])).filter
          fun id => id.timestamp = 5#_).length = 1 := by
  have small : (5#_ : ULID.Ty) ≤ ULID.maxTimestamp := by
    decide +kernel
  have fits : ∀ now ∈ ([5#_, 5#_, 5#_] : List ULID.Ty), now ≤ ULID.maxTimestamp := by
    intro now member
    have isFive : now = 5#_ := by simpa using member
    rw [isFive]
    exact small
  have both := tick_output_exact twoPerTick 0#_ 3#_ 0#_ (by decide +kernel) [5#_, 5#_, 5#_]
    (by decide +kernel) (by decide +kernel) ULID 0#_ 0#_ (fun _ => ULID.maxRandom)
    [5#_, 5#_, 5#_] (by decide +kernel) fits
  constructor
  · rw [both.1 5#_ (by decide +kernel)]
    decide +kernel
  · rw [(both.2 5#_ (by decide +kernel)).1, List.length_map, List.length_range]
    decide +kernel

end Ferroid.Generator
