import Mathlib.Algebra.BigOperators.Intervals
import Mathlib.Order.Interval.Finset.Nat
import Ferroid.Generator.Capacity
import Ferroid.Generator.Ulid.ThreadLocal
import Ferroid.Library.Chance

/-!
Contract: how likely generators that know nothing of each other issue the same ULID.

Owns the bounds on the chance of a collision, over whole runs: for the plain generator, which
draws every ID, and for any number of monotonic generators, which draw one number for each
tick and count up from it. That the draws are independent and uniform is all that is asked
of the random source.

Does not own collisions of a generator with itself (`Generator.Ulid.BasicMono`).
-/

namespace Ferroid.Generator

open Ferroid.Id
open Ferroid.Library
open Ferroid.Library.TickCounter

/-! ## Runs that count up and meet -/

/-- Two runs of that many numbers meet when they start that close to each other. -/
def Near {size : Nat} (polls : Nat) (left right : Fin size) : Prop :=
  left.val < right.val + polls ∧ right.val < left.val + polls

theorem Near.symm {size polls : Nat} {left right : Fin size} (near : Near polls left right) :
    Near polls right left :=
  ⟨near.2, near.1⟩

theorem ncard_near {size : Nat} (polls : Nat) (value : Fin size) :
    {other | Near polls value other}.ncard =
      min size (value.val + polls) - (value.val + 1 - polls) := by
  have counted : Set.image Fin.val {other | Near polls value other} =
      (Finset.Ico (value.val + 1 - polls) (min size (value.val + polls)) : Set Nat) := by
    ext number
    rw [Finset.coe_Ico, Set.mem_Ico, Set.mem_image]
    constructor
    · rintro ⟨other, ⟨below, above⟩, rfl⟩
      omega
    · rintro ⟨below, above⟩
      exact ⟨⟨number, by omega⟩, ⟨by simp only; omega, by simp only; omega⟩, rfl⟩
  rw [← Set.ncard_image_of_injective _ Fin.val_injective, counted, Set.ncard_coe_finset,
    Nat.card_Ico]

theorem ncard_near_le {size : Nat} (polls : Nat) (value : Fin size) :
    {other | Near polls value other}.ncard ≤ 2 * polls - 1 := by
  rw [ncard_near]
  omega

/-- How far all numbers below `size` lie above the first `polls` of them. -/
private theorem sum_excess {polls : Nat} (more : Nat) :
    2 * ∑ number ∈ Finset.range (polls + more), (number + 1 - polls) = more * (more + 1) := by
  induction more with
  | zero =>
      have none : ∑ number ∈ Finset.range (polls + 0), (number + 1 - polls) = 0 := by
        apply Finset.sum_eq_zero
        intro number below
        rw [Finset.mem_range] at below
        omega
      rw [none]
  | succ more inductionHypothesis =>
      rw [← Nat.add_assoc, Finset.sum_range_succ, Nat.mul_add, inductionHypothesis,
        show polls + more + 1 - polls = more + 1 by omega]
      ring

/-- The starts that are not near each other leave no room between them. -/
theorem ncard_near_pairs {size polls : Nat} (positive : 0 < polls) (fits : polls ≤ size) :
    {pair : Fin size × Fin size | Near polls pair.1 pair.2}.ncard +
      (size - polls) * (size - polls + 1) = size * size := by
  have excess := @sum_excess polls (size - polls)
  rw [Nat.add_sub_cancel' fits] at excess
  have reflected := Finset.sum_range_reflect (fun number => number + 1 - polls) size
  have each : ∑ number ∈ Finset.range size, ((min size (number + polls) - (number + 1 - polls)) +
      (number + 1 - polls) + (size - 1 - number + 1 - polls)) = size * size := by
    rw [Finset.sum_congr rfl (g := fun _ => size), Finset.sum_const, Finset.card_range,
      smul_eq_mul]
    intro number below
    rw [Finset.mem_range] at below
    omega
  rw [Finset.sum_add_distrib, Finset.sum_add_distrib, reflected] at each
  rw [ncard_related]
  simp only [ncard_near]
  rw [Fin.sum_univ_eq_sum_range fun number =>
    min size (number + polls) - (number + 1 - polls)]
  omega

/-- Exactly how likely two starts are near each other. -/
theorem chance_near {size polls : Nat} (positive : 0 < polls) (fits : polls ≤ size) :
    chance (fun pair : Fin size × Fin size => Near polls pair.1 pair.2) =
      1 - ((size - polls : Nat) : ℚ) * ((size - polls : Nat) + 1) / size ^ 2 := by
  have counted := congrArg (Nat.cast (R := ℚ)) (ncard_near_pairs positive fits)
  push_cast at counted
  have nonzero : (size : ℚ) ≠ 0 := Nat.cast_ne_zero.mpr (by omega)
  unfold chance
  rw [Nat.card_prod, Nat.card_fin, Nat.cast_mul, eq_sub_iff_add_eq, sq, ← add_div, counted,
    div_self (mul_ne_zero nonzero nonzero)]

/-! ## Plain IDs -/

section Plain

variable {layout : UlidLayout}

theorem randomBits_le_width : layout.randomBits ≤ layout.width := Nat.le_of_lt layout.random_lt

/-- Two plain IDs are equal only if their ticks and their random fields are. -/
theorem lowBits_of_pollId_eq {now other rand otherRand : layout.Ty}
    (fits : now ≤ layout.maxTimestamp) (otherFits : other ≤ layout.maxTimestamp)
    (same : BasicUlidGenerator.pollId now rand = BasicUlidGenerator.pollId other otherRand) :
    now = other ∧
      lowBits layout.randomBits rand = lowBits layout.randomBits otherRand := by
  have sameId := Poll.ready.inj same
  have timestamps := congrArg (fun id => id.timestamp.toNat) sameId
  have randoms := congrArg (fun id => id.random.toNat) sameId
  rw [UlidLayout.le_maxTimestamp_iff] at fits otherFits
  simp only [(UlidId.fields_fromComponents _ _).1, Nat.mod_eq_of_lt fits,
    Nat.mod_eq_of_lt otherFits] at timestamps
  simp only [(UlidId.fields_fromComponents _ _).2] at randoms
  exact ⟨BitVec.eq_of_toNat_eq timestamps, Fin.ext randoms⟩

/-- The polls of a tick. -/
def pollsIn {polls : Nat} (now : Fin polls → layout.Ty) (tick : layout.Ty) : Finset (Fin polls) :=
  Finset.univ.filter fun poll => now poll = tick

theorem chance_plain_collision_le {polls : Nat} (now : Fin polls → layout.Ty)
    (fits : ∀ poll, now poll ≤ layout.maxTimestamp) :
    chance (fun rand : Fin polls → layout.Ty => ∃ left right, left ≠ right ∧
        BasicUlidGenerator.pollId (now left) (rand left) =
          BasicUlidGenerator.pollId (now right) (rand right)) ≤
      ∑ tick ∈ Finset.univ.image now, (pollsIn now tick).card.choose 2 *
        (1 / 2 ^ layout.randomBits : ℚ) := by
  let clash (_ : layout.Ty) (left right : Fin polls) (rand : Fin polls → layout.Ty) : Prop :=
    lowBits layout.randomBits (rand left) = lowBits layout.randomBits (rand right)
  calc
    _ ≤ chance fun rand => ∃ tick ∈ Finset.univ.image now, ∃ left ∈ pollsIn now tick,
          ∃ right ∈ pollsIn now tick, left ≠ right ∧ clash tick left right rand := by
      apply chance_mono
      rintro rand ⟨left, right, different, same⟩
      obtain ⟨sameTick, sameBits⟩ := lowBits_of_pollId_eq (fits left) (fits right) same
      exact ⟨now left, Finset.mem_image_of_mem now (Finset.mem_univ left), left,
        by simp [pollsIn], right, by simp [pollsIn, sameTick], different, sameBits⟩
    _ ≤ _ := by
      apply chance_exists_group_le
      · intro tick left right rand same
        exact same.symm
      · intro tick _ left _ right _ different
        have one : ∀ value : Fin (2 ^ layout.randomBits), {other | value = other}.ncard ≤ 1 := by
          intro value
          simp
        have bound := chance_low_bits_le different randomBits_le_width one
        rwa [Nat.cast_one] at bound

end Plain

/-! ## Monotonic runs -/

/-- A monotonic generator and the readings of its polls: a non-decreasing clock within the
timestamp field that is past the state the generator starts with. -/
structure MonoRun (layout : UlidLayout) where
  t0 : layout.Ty
  r0 : layout.Ty
  readings : List layout.Ty
  sorted : readings.Pairwise (· ≤ ·)
  inRange : ∀ now ∈ readings, now ≤ layout.maxTimestamp
  started : ∀ now ∈ readings,
    (BasicMonoUlidGenerator.fromComponents t0 r0 : BasicMonoUlidGenerator layout).state.timestamp <
      now

namespace MonoRun

variable {layout : UlidLayout} (run : MonoRun layout)

def start : BasicMonoUlidGenerator layout := .fromComponents run.t0 run.r0

/-- The random source: a draw for each poll, as no run takes more. -/
def rng {draws : Nat} (rand : Fin draws → layout.Ty) (index : Nat) : layout.Ty :=
  if fits : index < draws then rand ⟨index, fits⟩ else 0#(layout.width)

/-- The IDs it issues. -/
def issued (rand : Fin run.readings.length → layout.Ty) : List (UlidId layout) :=
  readyIds (pollAll (BasicMonoUlidGenerator.pollId (rng rand)) run.start run.readings)

/-- The tick is read, so it has a draw. -/
theorem drawOf_lt {tick : layout.Ty} (read : tick ∈ run.readings) :
    run.start.drawOf run.readings tick < run.readings.length := by
  have counted := ticksBefore_add_count_le tick.toNat run.start.state.timestamp.toNat
    (run.readings.map BitVec.toNat)
  have positive := List.count_pos_iff.mpr read
  rw [count_toNat, List.length_map] at counted
  unfold BasicMonoUlidGenerator.drawOf
  rw [show run.start.drawn = 0 from rfl]
  omega

/-- The random field that a tick starts from. -/
def first (rand : Fin run.readings.length → layout.Ty) {tick : layout.Ty}
    (read : tick ∈ run.readings) : Fin (2 ^ layout.randomBits) :=
  lowBits layout.randomBits (rand ⟨_, run.drawOf_lt read⟩)

variable {run} {rand : Fin run.readings.length → layout.Ty}

/-- What a tick gets: it counts up from its draw. -/
theorem mem_issued_iff {tick : layout.Ty} (read : tick ∈ run.readings) {id : UlidId layout} :
    id ∈ run.issued rand ∧ id.timestamp = tick ↔
      ∃ count, count < run.readings.count tick ∧
        (run.first rand read).val + count < 2 ^ layout.randomBits ∧
        UlidId.fromComponents tick
          (BitVec.ofNat layout.width ((run.first rand read).val + count)) = id := by
  have filtered := BasicMonoUlidGenerator.filter_readyIds (rng rand)
    (BasicMonoUlidGenerator.serves_fromComponents run.t0 run.r0) run.sorted run.inRange
    (run.started tick read)
  have drawn : (rng rand (run.start.drawOf run.readings tick)).toNat % 2 ^ layout.randomBits =
      (run.first rand read).val := by
    rw [rng, dif_pos (run.drawOf_lt read)]
    rfl
  have members : id ∈ run.issued rand ∧ id.timestamp = tick ↔
      id ∈ (run.issued rand).filter fun id => id.timestamp = tick := by
    rw [List.mem_filter, decide_eq_true_eq]
  rw [members, issued, start, filtered, List.mem_map]
  simp only [List.mem_range, Nat.lt_min]
  refine exists_congr fun count => ?_
  rw [← start, drawn, and_assoc, Nat.lt_sub_iff_add_lt']

/-- Only ticks that are read get IDs. -/
theorem read_of_mem_issued {id : UlidId layout} (member : id ∈ run.issued rand) :
    id.timestamp ∈ run.readings := by
  obtain ⟨polled, polledMember, ready⟩ := mem_readyIds.mp member
  refine pollAll_forall (fun _ => True) (· ∈ run.readings)
    (fun polled => ∀ id : UlidId layout, polled.result = .ready id → id.timestamp ∈ run.readings)
    ?_ trivial (fun _ read => read) polled polledMember id ready
  intro generator now _ read
  refine ⟨trivial, fun answered isReady => ?_⟩
  have polls := BasicMonoUlidGenerator.polls_pollId (rng rand) generator now
  rwa [polls.timestamp (run.inRange now read) isReady]

/-- The random fields of a tick lie just above its draw. -/
theorem random_of_mem_issued {id : UlidId layout} (member : id ∈ run.issued rand) :
    (run.first rand (read_of_mem_issued member)).val ≤ id.random.toNat ∧
      id.random.toNat < (run.first rand (read_of_mem_issued member)).val +
        run.readings.count id.timestamp := by
  obtain ⟨count, few, room, isId⟩ := (mem_issued_iff (read_of_mem_issued member)).mp ⟨member, rfl⟩
  have random := congrArg (fun id => id.random.toNat) isId
  have inside := Nat.lt_of_lt_of_le room (Nat.pow_le_pow_right (by decide) randomBits_le_width)
  simp only [(UlidId.fields_fromComponents _ _).2, BitVec.toNat_ofNat, Nat.mod_eq_of_lt inside,
    Nat.mod_eq_of_lt room] at random
  omega

section Meet

variable {left right : MonoRun layout} {leftRand : Fin left.readings.length → layout.Ty}
  {rightRand : Fin right.readings.length → layout.Ty} {polls : Nat}

/-- Runs that issue the same ID started its tick near each other. -/
theorem near_of_meet {id : UlidId layout} (inLeft : id ∈ left.issued leftRand)
    (inRight : id ∈ right.issued rightRand)
    (leftOften : left.readings.count id.timestamp ≤ polls)
    (rightOften : right.readings.count id.timestamp ≤ polls) :
    Near polls (left.first leftRand (read_of_mem_issued inLeft))
      (right.first rightRand (read_of_mem_issued inRight)) := by
  have leftBounds := random_of_mem_issued inLeft
  have rightBounds := random_of_mem_issued inRight
  constructor <;> omega

variable {tick : layout.Ty} (readLeft : tick ∈ left.readings) (readRight : tick ∈ right.readings)

/-- The run that starts lower comes to the start of the other. -/
theorem meet_of_le (order : (left.first leftRand readLeft).val ≤ (right.first rightRand readRight).val)
    (leftOften : (right.first rightRand readRight).val <
      (left.first leftRand readLeft).val + left.readings.count tick) :
    ∃ id, id.timestamp = tick ∧ id ∈ left.issued leftRand ∧ id ∈ right.issued rightRand := by
  have whole := Nat.add_sub_cancel' order
  have room := (right.first rightRand readRight).isLt
  have reached := (mem_issued_iff readLeft).mpr ⟨_, by omega, whole.symm ▸ room, rfl⟩
  have started := (mem_issued_iff readRight).mpr
    ⟨0, List.count_pos_iff.mpr readRight, room, rfl⟩
  rw [whole] at reached
  exact ⟨_, reached.2, reached.1, started.1⟩

/-- Where both are polled equally often in a tick, they meet in it exactly if they started
it near each other. -/
theorem meet_iff (leftOften : left.readings.count tick = polls)
    (rightOften : right.readings.count tick = polls) :
    (∃ id, id.timestamp = tick ∧ id ∈ left.issued leftRand ∧ id ∈ right.issued rightRand) ↔
      Near polls (left.first leftRand readLeft) (right.first rightRand readRight) := by
  constructor
  · rintro ⟨id, rfl, inLeft, inRight⟩
    exact near_of_meet inLeft inRight (Nat.le_of_eq leftOften) (Nat.le_of_eq rightOften)
  · rintro ⟨below, above⟩
    rcases Nat.le_total (left.first leftRand readLeft).val (right.first rightRand readRight).val
      with order | order
    · exact meet_of_le readLeft readRight order (leftOften ▸ above)
    · obtain ⟨id, isTick, inRight, inLeft⟩ := meet_of_le readRight readLeft order
        (rightOften ▸ below)
      exact ⟨id, isTick, inLeft, inRight⟩

end Meet

/-! ## Many runs -/

section Runs

variable {generators : Nat} (runs : Fin generators → MonoRun layout)

/-- What all random sources draw: one number for each poll of each generator. -/
abbrev Draws := (generator : Fin generators) × Fin (runs generator).readings.length → layout.Ty

def issuedBy (rand : Draws runs) (generator : Fin generators) : List (UlidId layout) :=
  (runs generator).issued fun poll => rand ⟨generator, poll⟩

/-- The generators that are polled in a tick. -/
def readers (tick : layout.Ty) : Finset (Fin generators) :=
  Finset.univ.filter fun generator => tick ∈ (runs generator).readings

def ticks : Finset layout.Ty :=
  Finset.univ.biUnion fun generator => (runs generator).readings.toFinset

/-- Both start a tick near each other. -/
def Clash (polls : layout.Ty → Nat) (tick : layout.Ty) (left right : Fin generators)
    (rand : Draws runs) : Prop :=
  ∃ (readLeft : tick ∈ (runs left).readings) (readRight : tick ∈ (runs right).readings),
    Near (polls tick) ((runs left).first (fun poll => rand ⟨left, poll⟩) readLeft)
      ((runs right).first (fun poll => rand ⟨right, poll⟩) readRight)

variable {runs}

/-- Generators draw independently of each other. -/
theorem draws_differ {left right : Fin generators} (different : left ≠ right)
    (leftPoll : Fin (runs left).readings.length) (rightPoll : Fin (runs right).readings.length) :
    (⟨left, leftPoll⟩ : (generator : Fin generators) × Fin (runs generator).readings.length) ≠
      ⟨right, rightPoll⟩ :=
  fun same => different (congrArg Sigma.fst same)

theorem chance_clash_le {polls : layout.Ty → Nat} {tick : layout.Ty} {left right : Fin generators}
    (different : left ≠ right) (readLeft : tick ∈ (runs left).readings)
    (readRight : tick ∈ (runs right).readings) :
    chance (Clash runs polls tick left right) ≤
      ((2 * polls tick - 1 : Nat) : ℚ) / 2 ^ layout.randomBits := by
  refine le_trans (chance_mono ?_) (chance_low_bits_le
    (draws_differ different ⟨_, drawOf_lt _ readLeft⟩ ⟨_, drawOf_lt _ readRight⟩)
    randomBits_le_width (ncard_near_le (polls tick)))
  rintro rand ⟨_, _, near⟩
  exact near

/-- Any generators, over whole runs: a clash in some tick. -/
theorem chance_mono_collision_le {polls : layout.Ty → Nat}
    (often : ∀ generator tick, (runs generator).readings.count tick ≤ polls tick) :
    chance (fun rand : Draws runs => ∃ left right, left ≠ right ∧
        ∃ id, id ∈ issuedBy runs rand left ∧ id ∈ issuedBy runs rand right) ≤
      ∑ tick ∈ ticks runs, (readers runs tick).card.choose 2 *
        (((2 * polls tick - 1 : Nat) : ℚ) / 2 ^ layout.randomBits) := by
  calc
    _ ≤ chance fun rand => ∃ tick ∈ ticks runs, ∃ left ∈ readers runs tick,
          ∃ right ∈ readers runs tick, left ≠ right ∧ Clash runs polls tick left right rand := by
      apply chance_mono
      rintro rand ⟨left, right, different, id, inLeft, inRight⟩
      have readLeft := read_of_mem_issued inLeft
      have readRight := read_of_mem_issued inRight
      refine ⟨id.timestamp, ?_, left, by simp [readers, readLeft], right,
        by simp [readers, readRight], different, readLeft, readRight,
        near_of_meet inLeft inRight (often left _) (often right _)⟩
      exact Finset.mem_biUnion.mpr ⟨left, Finset.mem_univ _, List.mem_toFinset.mpr readLeft⟩
    _ ≤ _ := by
      apply chance_exists_group_le
      · rintro tick left right rand ⟨readLeft, readRight, near⟩
        exact ⟨readRight, readLeft, near.symm⟩
      · intro tick _ left inLeft right inRight different
        exact chance_clash_le different (Finset.mem_filter.mp inLeft).2
          (Finset.mem_filter.mp inRight).2

/-- Two generators in one tick, exactly. -/
theorem chance_meet {tick : layout.Ty} {left right : Fin generators} (different : left ≠ right)
    {polls : Nat} (positive : 0 < polls) (fits : polls ≤ 2 ^ layout.randomBits)
    (leftOften : (runs left).readings.count tick = polls)
    (rightOften : (runs right).readings.count tick = polls) :
    chance (fun rand : Draws runs => ∃ id, id.timestamp = tick ∧
        id ∈ issuedBy runs rand left ∧ id ∈ issuedBy runs rand right) =
      1 - ((2 ^ layout.randomBits - polls : Nat) : ℚ) *
        ((2 ^ layout.randomBits - polls : Nat) + 1) / (2 ^ layout.randomBits) ^ 2 := by
  have readLeft : tick ∈ (runs left).readings := by
    rw [← List.count_pos_iff, leftOften]
    exact positive
  have readRight : tick ∈ (runs right).readings := by
    rw [← List.count_pos_iff, rightOften]
    exact positive
  have meets : (fun rand : Draws runs => ∃ id, id.timestamp = tick ∧
      id ∈ issuedBy runs rand left ∧ id ∈ issuedBy runs rand right) = fun rand : Draws runs =>
        Near polls (lowBits layout.randomBits (rand ⟨left, ⟨_, drawOf_lt _ readLeft⟩⟩))
          (lowBits layout.randomBits (rand ⟨right, ⟨_, drawOf_lt _ readRight⟩⟩)) := by
    funext rand
    exact propext (meet_iff readLeft readRight leftOften rightOften)
  have exact := chance_near positive fits
  rw [Nat.cast_pow, Nat.cast_ofNat] at exact
  rw [meets, chance_two_draws (draws_differ different _ _)
    fun leftWord rightWord : layout.Ty => Near polls (lowBits layout.randomBits leftWord)
      (lowBits layout.randomBits rightWord), chance_low_bits randomBits_le_width, exact]

end Runs

end MonoRun

/-- Independent uniform draws, over whole runs within the timestamp field. Plain IDs collide
at most as often as two of those of one tick draw the same number. Monotonic generators
collide at most as often as two of those that are polled in one tick draw numbers that are
nearer than their polls; for two of them and one tick that chance is exact. -/
theorem ulid_collisions_bounded (layout : UlidLayout)
    {plainPolls : Nat} (now : Fin plainPolls → layout.Ty)
    (fits : ∀ poll, now poll ≤ layout.maxTimestamp)
    {generators : Nat} (runs : Fin generators → MonoRun layout) (polls : layout.Ty → Nat)
    (often : ∀ generator tick, (runs generator).readings.count tick ≤ polls tick) :
    (chance (fun rand : Fin plainPolls → layout.Ty => ∃ left right, left ≠ right ∧
        BasicUlidGenerator.pollId (now left) (rand left) =
          BasicUlidGenerator.pollId (now right) (rand right)) ≤
      ∑ tick ∈ Finset.univ.image now,
        (pollsIn now tick).card.choose 2 * (1 / 2 ^ layout.randomBits : ℚ)) ∧
    (chance (fun rand : MonoRun.Draws runs => ∃ left right, left ≠ right ∧
        ∃ id, id ∈ MonoRun.issuedBy runs rand left ∧ id ∈ MonoRun.issuedBy runs rand right) ≤
      ∑ tick ∈ MonoRun.ticks runs, (MonoRun.readers runs tick).card.choose 2 *
        (((2 * polls tick - 1 : Nat) : ℚ) / 2 ^ layout.randomBits)) ∧
    ∀ left right tick k, left ≠ right → 0 < k → k ≤ 2 ^ layout.randomBits →
      (runs left).readings.count tick = k → (runs right).readings.count tick = k →
      chance (fun rand : MonoRun.Draws runs => ∃ id, id.timestamp = tick ∧
          id ∈ MonoRun.issuedBy runs rand left ∧ id ∈ MonoRun.issuedBy runs rand right) =
        1 - ((2 ^ layout.randomBits - k : Nat) : ℚ) *
          ((2 ^ layout.randomBits - k : Nat) + 1) / (2 ^ layout.randomBits) ^ 2 := by
  refine ⟨chance_plain_collision_le now fits, MonoRun.chance_mono_collision_le often, ?_⟩
  intro left right tick k different positive few leftOften rightOften
  exact MonoRun.chance_meet different positive few leftOften rightOften

/-- Two polls in one millisecond. -/
def twoPolls : MonoRun ULID where
  t0 := 0#_
  r0 := 0#_
  readings := [5#_, 5#_]
  sorted := by
    decide
  inRange now read := by
    have isFive : now = 5#_ := by simpa using read
    rw [isFive]
    decide +kernel
  started now read := by
    have isFive : now = 5#_ := by simpa using read
    rw [isFive]
    decide +kernel

theorem ulid_collisions_bounded_two_polls :
    chance (fun rand : Fin 2 → ULID.Ty => ∃ left right, left ≠ right ∧
        BasicUlidGenerator.pollId 5#_ (rand left) = BasicUlidGenerator.pollId 5#_ (rand right)) ≤
      1 / 2 ^ 80 ∧
    chance (fun rand : MonoRun.Draws fun _ : Fin 2 => twoPolls => ∃ left right, left ≠ right ∧
        ∃ id, id ∈ MonoRun.issuedBy _ rand left ∧ id ∈ MonoRun.issuedBy _ rand right) ≤
      3 / 2 ^ 80 := by
  have often : ∀ (_ : Fin 2) (tick : ULID.Ty), twoPolls.readings.count tick ≤ 2 :=
    fun _ _ => List.count_le_length
  obtain ⟨plain, mono, _⟩ := ulid_collisions_bounded ULID (fun _ : Fin 2 => 5#_)
    (fun _ => by decide +kernel) (fun _ : Fin 2 => twoPolls) (fun _ => 2) often
  have ticks : (MonoRun.ticks fun _ : Fin 2 => twoPolls) = {5#_} := by
    decide +kernel
  have readers : (MonoRun.readers (fun _ : Fin 2 => twoPolls) 5#_).card = 2 := by
    decide +kernel
  have plainTicks : (Finset.univ.image fun _ : Fin 2 => (5#_ : ULID.Ty)) = {5#_} := by
    decide +kernel
  have both : (pollsIn (fun _ : Fin 2 => (5#_ : ULID.Ty)) 5#_).card = 2 := by
    decide +kernel
  have bits : ULID.randomBits = 80 := rfl
  rw [plainTicks, Finset.sum_singleton, both, bits, Nat.choose_self, Nat.cast_one, one_mul] at plain
  rw [ticks, Finset.sum_singleton, readers, bits, Nat.choose_self, Nat.cast_one, one_mul] at mono
  exact ⟨plain, mono⟩

end Ferroid.Generator
