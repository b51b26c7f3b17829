import Mathlib.Data.Nat.Basic

/-!
Contract: waiting for a tick on a clock that counts whole units.

Owns why and how long one waits at a reading, and the bound of two waits: on a
clock that never goes back, and on one whose counter wraps but whose ticker does
not.

Does not own any clock or any reason to wait.
-/

namespace Ferroid.Library.TickWait

/-- At the reading `now` one waits `units` units for the tick: because it is still
ahead, or because it is reached and already used up. -/
def Asks (tick : Nat) (full : Prop) (now units : Nat) : Prop :=
  now < tick ∧ now + units = tick ∨ now = tick ∧ full ∧ units = 1

section Asks

variable {tick : Nat} {full : Prop}

theorem Asks.pos {now units : Nat} (asks : Asks tick full now units) : 1 ≤ units := by
  unfold Asks at asks
  omega

/-- Two waits that the clock keeps up with are enough: after the first the tick is
reached, after the second it is past. -/
theorem Asks.not_thrice {first second third firstUnits secondUnits thirdUnits : Nat}
    (firstAsks : Asks tick full first firstUnits) (waited : first + firstUnits ≤ second)
    (secondAsks : Asks tick full second secondUnits)
    (waitedAgain : second + secondUnits ≤ third) : ¬ Asks tick full third thirdUnits := by
  unfold Asks at *
  omega

/-! ## A counter that wraps -/

/-- The units of `unit` shown by a counter of `range` values that runs `offset` ahead
of its ticker. -/
def shown (range unit offset ticker : Nat) : Nat := (offset + ticker) % range / unit

/-- The counter has wrapped or not, and shows whole units. -/
theorem shown_bounds {range unit offset ticker : Nat} (unit_pos : 0 < unit)
    (offset_lt : offset < range) (ticker_lt : ticker < range) :
    ∃ counter, shown range unit offset ticker * unit ≤ counter ∧
      counter < shown range unit offset ticker * unit + unit ∧
      (counter = offset + ticker ∧ counter < range ∨ range + counter = offset + ticker) := by
  refine ⟨(offset + ticker) % range, Nat.div_mul_le_self _ _, Nat.lt_div_mul_add unit_pos, ?_⟩
  rcases Nat.lt_or_ge (offset + ticker) range with below | wrapped
  · exact Or.inl ⟨Nat.mod_eq_of_lt below, Nat.mod_lt _ (by omega)⟩
  · rw [Nat.mod_eq_sub_mod wrapped, Nat.mod_eq_of_lt (by omega)]
    exact Or.inr (by omega)

/-- The same in ticker steps. -/
theorem Asks.scaled {now units : Nat} (asks : Asks tick full now units) (unit : Nat) :
    now * unit + unit ≤ tick * unit ∧ now * unit + units * unit = tick * unit ∨
      now * unit = tick * unit ∧ units * unit = unit := by
  rcases asks with ⟨ahead, difference⟩ | ⟨reached, _, one⟩
  · have next := Nat.mul_le_mul_right unit ahead
    rw [Nat.succ_mul] at next
    rw [← difference, Nat.add_mul]
    rw [← difference, Nat.add_mul] at next
    exact Or.inl ⟨next, rfl⟩
  · rw [reached, one, Nat.one_mul]
    exact Or.inr ⟨rfl, rfl⟩

/-- Where the counter wraps in between, a third wait would take the ticker once
around. -/
theorem Asks.not_thrice_wrapping
    {range unit offset first second third fourth firstUnits secondUnits thirdUnits : Nat}
    (unit_pos : 0 < unit) (offset_lt : offset < range) (fourth_lt : fourth < range)
    (firstAsks : Asks tick full (shown range unit offset first) firstUnits)
    (waited : first + firstUnits * unit ≤ second)
    (secondAsks : Asks tick full (shown range unit offset second) secondUnits)
    (waitedAgain : second + secondUnits * unit ≤ third)
    (thirdAsks : Asks tick full (shown range unit offset third) thirdUnits)
    (waitedOnceMore : third + thirdUnits * unit ≤ fourth) : False := by
  obtain ⟨one, oneLow, oneHigh, oneWraps⟩ :=
    shown_bounds unit_pos offset_lt (by omega : first < range)
  obtain ⟨two, twoLow, twoHigh, twoWraps⟩ :=
    shown_bounds unit_pos offset_lt (by omega : second < range)
  obtain ⟨three, threeLow, threeHigh, threeWraps⟩ :=
    shown_bounds unit_pos offset_lt (by omega : third < range)
  have firstScaled := firstAsks.scaled unit
  have secondScaled := secondAsks.scaled unit
  have thirdScaled := thirdAsks.scaled unit
  -- The products are atoms from here on: everything is linear in ticker steps.
  generalize shown range unit offset first * unit = firstShown at *
  generalize shown range unit offset second * unit = secondShown at *
  generalize shown range unit offset third * unit = thirdShown at *
  rcases twoWraps with ⟨twoEq, twoBelow⟩ | twoWrapped
  · rcases threeWraps with ⟨threeEq, threeBelow⟩ | threeWrapped
    -- Nothing wraps: the third reading is past the tick.
    · omega
    -- The second wait wraps: the offset is below the tick, so `fourth` is out of range.
    · omega
  -- The first wait wraps, or everything comes after the wrap.
  · omega

end Asks

end Ferroid.Library.TickWait
