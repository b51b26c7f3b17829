import Mathlib.Data.Int.CardIntervalMod

/-!
Contract: the turns that members get from a counter that wraps around.

Owns the number of turns a member gets when turn `k` goes to member
`(k % range) % size`, and the bound on how far two members can be apart: one turn,
and one more for each time the counter has wrapped.

Does not own any counter.
-/

namespace Ferroid.Library.RoundRobin

/-- Turns of one member among the first `turns`. -/
def share (range size member turns : Nat) : Nat :=
  Nat.count (fun turn => turn % range % size = member) turns

section Share

variable {range size : Nat}

/-- The counter starts again after a whole range. -/
theorem share_range_add (member rounds turns : Nat) :
    share range size member (range * rounds + turns) =
      share range size member (range * rounds) + share range size member turns := by
  simp only [share]
  rw [Nat.count_add]
  congr 1
  simp only [Nat.mul_add_mod]

theorem share_rounds (member rounds : Nat) :
    share range size member (range * rounds) = rounds * share range size member range := by
  induction rounds with
  | zero => simp [share]
  | succ rounds inductionHypothesis =>
      rw [Nat.mul_succ, share_range_add, inductionHypothesis, Nat.succ_mul]

/-- Before it wraps, the counter gives every member its share up to one turn. -/
theorem share_of_le {member turns : Nat} (known : member < size) (small : turns ≤ range) :
    share range size member turns =
      turns / size + if member < turns % size then 1 else 0 := by
  have unwrapped : share range size member turns =
      Nat.count (fun turn => turn ≡ member [MOD size]) turns := by
    simp only [share, Nat.count_eq_card_filter_range]
    congr 1
    apply Finset.filter_congr
    intro turn inside
    have below : turn < range := Nat.lt_of_lt_of_le (Finset.mem_range.mp inside) small
    rw [Nat.mod_eq_of_lt below, Nat.ModEq, Nat.mod_eq_of_lt known]
  rw [unwrapped, Nat.count_modEq_card _ (Nat.zero_lt_of_lt known), Nat.mod_eq_of_lt known]

/-- Two members are one turn apart, and one more for each wrap. -/
theorem share_le_share (positive : 0 < range) {left right turns : Nat} (leftKnown : left < size)
    (rightKnown : right < size) :
    share range size left turns ≤ share range size right turns + (turns / range + 1) := by
  have leftRound := share_of_le leftKnown (Nat.le_refl range)
  have rightRound := share_of_le rightKnown (Nat.le_refl range)
  have leftRest := share_of_le leftKnown (Nat.le_of_lt (Nat.mod_lt turns positive))
  have rightRest := share_of_le rightKnown (Nat.le_of_lt (Nat.mod_lt turns positive))
  have rounds : turns / range * share range size left range ≤
      turns / range * share range size right range + turns / range := by
    rw [← Nat.mul_succ]
    apply Nat.mul_le_mul_left
    rw [leftRound, rightRound]
    split <;> split <;> omega
  rw [← Nat.div_add_mod turns range, share_range_add, share_range_add, share_rounds,
    share_rounds, leftRest, rightRest, Nat.div_add_mod]
  split <;> split <;> omega

end Share

end Ferroid.Library.RoundRobin
