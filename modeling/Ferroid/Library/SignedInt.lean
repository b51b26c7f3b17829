import Mathlib.Algebra.Order.Ring.Int
import Mathlib.Data.Nat.Cast.Basic

/-!
Contract: signed machine integers with checked arithmetic.

Owns the integers a word of a given size holds, the wrapping cast into them, and
the checked operations, which return nothing when the exact result does not fit.

Does not own unsigned words.
-/

namespace Ferroid.Library

/-- A two's-complement integer of `bits + 1` bits: its value, within the range. -/
@[ext]
structure SignedInt (bits : Nat) where
  val : Int
  lower : -2 ^ bits ≤ val
  upper : val < 2 ^ bits
deriving DecidableEq, Repr

namespace SignedInt

variable {bits : Nat}

/-- The machine integer with a given value, if there is one. -/
def ofInt? (bits : Nat) (exact : Int) : Option (SignedInt bits) :=
  if fits : -2 ^ bits ≤ exact ∧ exact < 2 ^ bits then
    some ⟨exact, fits.1, fits.2⟩
  else
    none

/-- The cast that keeps the low bits. -/
def wrap (bits : Nat) (exact : Int) : SignedInt bits where
  val := exact.bmod (2 ^ (bits + 1))
  lower := by
    have low := Int.le_bmod (x := exact) (m := 2 ^ (bits + 1)) (Nat.two_pow_pos _)
    rw [Nat.cast_pow, Nat.cast_ofNat, pow_succ, Int.mul_ediv_cancel _ (by decide)] at low
    exact low
  upper := by
    have high := Int.bmod_lt (x := exact) (m := 2 ^ (bits + 1)) (Nat.two_pow_pos _)
    rw [Nat.cast_pow, Nat.cast_ofNat, pow_succ] at high
    exact lt_of_lt_of_eq high (by omega)

def checkedAdd (left right : SignedInt bits) : Option (SignedInt bits) :=
  ofInt? bits (left.val + right.val)

def checkedSub (left right : SignedInt bits) : Option (SignedInt bits) :=
  ofInt? bits (left.val - right.val)

def checkedMul (left right : SignedInt bits) : Option (SignedInt bits) :=
  ofInt? bits (left.val * right.val)

/-- Truncating division; nothing for a zero divisor. -/
def checkedDiv (left right : SignedInt bits) : Option (SignedInt bits) :=
  if right.val = 0 then none else ofInt? bits (left.val.tdiv right.val)

/-- An exact result that fits is the result. -/
theorem ofInt?_of_fits {exact : Int} (lower : -2 ^ bits ≤ exact) (upper : exact < 2 ^ bits) :
    ofInt? bits exact = some ⟨exact, lower, upper⟩ :=
  dif_pos ⟨lower, upper⟩

theorem val_wrap_of_fits {exact : Int} (lower : -2 ^ bits ≤ exact) (upper : exact < 2 ^ bits) :
    (wrap bits exact).val = exact := by
  have double : ((2 ^ (bits + 1) : Nat) : Int) = 2 * 2 ^ bits := by
    rw [Nat.cast_pow, Nat.cast_ofNat, pow_succ, mul_comm]
  show exact.bmod (2 ^ (bits + 1)) = exact
  apply Int.bmod_eq_of_le
  · omega
  · omega

/-- Dividing by a positive number moves toward zero, so the quotient fits. -/
theorem tdiv_fits (value : SignedInt bits) {divisor : Int} (positive : 0 < divisor) :
    -2 ^ bits ≤ value.val.tdiv divisor ∧ value.val.tdiv divisor < 2 ^ bits := by
  have lower := value.lower
  have upper := value.upper
  have shrinks : ∀ exact : Int, 0 ≤ exact →
      0 ≤ exact.tdiv divisor ∧ exact.tdiv divisor ≤ exact := by
    intro exact nonneg
    rw [Int.tdiv_eq_ediv_of_nonneg nonneg]
    exact ⟨Int.ediv_nonneg nonneg positive.le, Int.ediv_le_self divisor nonneg⟩
  rcases Int.le_total 0 value.val with nonneg | nonpos
  · have bounds := shrinks value.val nonneg
    omega
  · have bounds := shrinks (-value.val) (by omega)
    rw [Int.neg_tdiv] at bounds
    omega

/-- Truncating division takes the last divisor below zero to zero. -/
theorem tdiv_of_neg_lt {exact divisor : Int} (above : -divisor < exact) :
    exact.tdiv divisor = max exact 0 / divisor := by
  rcases Int.le_total 0 exact with nonneg | nonpos
  · rw [max_eq_left nonneg, Int.tdiv_eq_ediv_of_nonneg nonneg]
  · have vanishes : (-exact).tdiv divisor = 0 :=
      Int.tdiv_eq_zero_of_lt (by omega) (by omega)
    rw [Int.neg_tdiv] at vanishes
    rw [max_eq_right nonpos, Int.zero_ediv]
    omega

/-- The truncated quotient is negative only from one whole divisor below zero on. -/
theorem tdiv_neg_iff {exact divisor : Int} (positive : 0 < divisor) :
    exact.tdiv divisor < 0 ↔ exact ≤ -divisor := by
  constructor
  · intro negative
    by_contra above
    rw [tdiv_of_neg_lt (Int.not_le.mp above)] at negative
    exact absurd negative (Int.not_lt.mpr (Int.ediv_nonneg (le_max_right exact 0) positive.le))
  · intro below
    have whole : 1 ≤ -exact / divisor := Int.le_ediv_of_mul_le positive (by omega)
    rw [← Int.tdiv_eq_ediv_of_nonneg (by omega), Int.neg_tdiv] at whole
    omega

end SignedInt

end Ferroid.Library
