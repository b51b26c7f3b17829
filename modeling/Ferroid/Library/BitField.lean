import Mathlib.Data.BitVec
import Mathlib.Data.Nat.Bitwise
import Mathlib.Tactic.Ring
import Ferroid.Library.Radix

/-!
Contract: bit fields of a fixed-width word, read as mixed-radix digits.

Owns the low mask `(1 << bits) - 1`, the value of a masked, shifted and
or-ed word as a natural number, and the order and digit laws of
`high * 2 ^ bits + low`.

Does not own any concrete layout.
-/

namespace Ferroid.Library.BitField

variable {width : Nat}

/-! ## Words -/

/-- The mask of the `bits` low bits of a word, `(1 << bits) - 1`. -/
def lowMask (width bits : Nat) : BitVec width :=
  (1#(width) <<< bits) - 1#(width)

theorem toNat_lowMask {bits : Nat} (fits : bits < width) :
    (lowMask width bits).toNat = 2 ^ bits - 1 := by
  have powerFits : 2 ^ bits < 2 ^ width := Nat.pow_lt_pow_right (by decide) fits
  have oneFits : 1 < 2 ^ width := Nat.one_lt_two_pow (by omega)
  have power : (1#(width) <<< bits).toNat = 2 ^ bits := by
    rw [BitVec.toNat_shiftLeft, BitVec.toNat_ofNat, Nat.mod_eq_of_lt oneFits,
      Nat.shiftLeft_eq, Nat.one_mul, Nat.mod_eq_of_lt powerFits]
  have one : (1#(width)).toNat = 1 := by
    rw [BitVec.toNat_ofNat, Nat.mod_eq_of_lt oneFits]
  have positive : 1 ≤ 2 ^ bits := Nat.one_le_two_pow
  rw [lowMask, BitVec.toNat_sub_of_le, power, one]
  rw [BitVec.le_def, power, one]
  exact positive

/-- Masking keeps the value modulo the field size. -/
theorem toNat_and_lowMask {bits : Nat} (fits : bits < width) (word : BitVec width) :
    (word &&& lowMask width bits).toNat = word.toNat % 2 ^ bits := by
  rw [BitVec.toNat_and, toNat_lowMask fits, Nat.and_two_pow_sub_one_eq_mod]

/-- Reading a field: shift it down, then mask it. -/
theorem toNat_ushiftRight_and_lowMask {bits : Nat} (fits : bits < width)
    (shift : Nat) (word : BitVec width) :
    ((word >>> shift) &&& lowMask width bits).toNat =
      word.toNat / 2 ^ shift % 2 ^ bits := by
  rw [toNat_and_lowMask fits, BitVec.toNat_ushiftRight, Nat.shiftRight_eq_div_pow]

/-- Placing a field: mask it, then shift it up; nothing is lost at the top. -/
theorem toNat_and_lowMask_shiftLeft {bits : Nat} (fits : bits < width) (shift : Nat)
    (room : bits + shift ≤ width) (word : BitVec width) :
    ((word &&& lowMask width bits) <<< shift).toNat =
      word.toNat % 2 ^ bits * 2 ^ shift := by
  have small : word.toNat % 2 ^ bits * 2 ^ shift < 2 ^ width := by
    calc word.toNat % 2 ^ bits * 2 ^ shift
        < 2 ^ bits * 2 ^ shift :=
          Nat.mul_lt_mul_of_pos_right (Nat.mod_lt _ (Nat.two_pow_pos _)) (Nat.two_pow_pos _)
      _ = 2 ^ (bits + shift) := (Nat.pow_add 2 bits shift).symm
      _ ≤ 2 ^ width := Nat.pow_le_pow_right (by decide) room
  rw [BitVec.toNat_shiftLeft, toNat_and_lowMask fits, Nat.shiftLeft_eq,
    Nat.mod_eq_of_lt small]

/-- Two fields that do not overlap are added by `|`. -/
theorem toNat_or_of_disjoint {high low : BitVec width} (shift digit : Nat)
    (highValue : high.toNat = digit * 2 ^ shift) (lowSmall : low.toNat < 2 ^ shift) :
    (high ||| low).toNat = digit * 2 ^ shift + low.toNat := by
  rw [BitVec.toNat_or, highValue, ← Nat.shiftLeft_eq,
    Nat.shiftLeft_add_eq_or_of_lt lowSmall]

/-- A word has no bit outside a mask exactly when masking leaves it unchanged. -/
theorem and_not_eq_zero_iff (word mask : BitVec width) :
    word &&& ~~~mask = 0#(width) ↔ word &&& mask = word := by
  have split : (word &&& mask) ||| (word &&& ~~~mask) = word := by
    ext index bound
    simp only [BitVec.getElem_or, BitVec.getElem_and, BitVec.getElem_not]
    cases word[index] <;> cases mask[index] <;> rfl
  constructor
  · intro clear
    rw [clear, BitVec.or_zero] at split
    exact split
  · intro kept
    ext index bound
    have bit := congrArg (fun vector : BitVec width => vector[index]) kept
    simp only [BitVec.getElem_and] at bit
    simp only [BitVec.getElem_and, BitVec.getElem_not, BitVec.getElem_zero]
    revert bit
    cases word[index] <;> cases mask[index] <;> decide

/-- With a mask of ones up to `bits`, the surviving words are those below `2 ^ bits`. -/
theorem and_not_eq_zero_iff_lt {bits : Nat} {mask : BitVec width}
    (maskValue : mask.toNat = 2 ^ bits - 1) (word : BitVec width) :
    word &&& ~~~mask = 0#(width) ↔ word.toNat < 2 ^ bits := by
  have masked : (word &&& mask).toNat = word.toNat % 2 ^ bits := by
    rw [BitVec.toNat_and, maskValue, Nat.and_two_pow_sub_one_eq_mod]
  rw [and_not_eq_zero_iff, ← BitVec.toNat_inj, masked]
  exact Nat.mod_eq_iff_lt (Nat.two_pow_pos bits).ne'

/-! ## Digits -/

variable {bits high low otherHigh otherLow : Nat}

theorem digit_div (small : low < 2 ^ bits) :
    (high * 2 ^ bits + low) / 2 ^ bits = high := by
  rw [Nat.add_comm, Nat.add_mul_div_right _ _ (Nat.two_pow_pos bits),
    Nat.div_eq_of_lt small, Nat.zero_add]

theorem digit_mod (small : low < 2 ^ bits) :
    (high * 2 ^ bits + low) % 2 ^ bits = low := by
  rw [Nat.add_comm, Nat.add_mul_mod_self_right, Nat.mod_eq_of_lt small]

/-- Values compare lexicographically by their digits. -/
theorem digit_lt_iff (small : low < 2 ^ bits) (otherSmall : otherLow < 2 ^ bits) :
    high * 2 ^ bits + low < otherHigh * 2 ^ bits + otherLow ↔
      high < otherHigh ∨ high = otherHigh ∧ low < otherLow :=
  Radix.place_lt_iff small otherSmall

/-- A value below `2 ^ (count + bits)` has a leading digit below `2 ^ count`. -/
theorem digit_lt_pow {count : Nat} (highSmall : high < 2 ^ count)
    (small : low < 2 ^ bits) :
    high * 2 ^ bits + low < 2 ^ (count + bits) := by
  have gap : (high + 1) * 2 ^ bits ≤ 2 ^ count * 2 ^ bits :=
    Nat.mul_le_mul_right _ highSmall
  rw [Nat.add_mul, Nat.one_mul, ← Nat.pow_add] at gap
  omega

/-- Filling both digits with ones gives the all-ones value. -/
theorem digit_ones (count bits : Nat) :
    (2 ^ count - 1) * 2 ^ bits + (2 ^ bits - 1) = 2 ^ (count + bits) - 1 := by
  have countPositive := Nat.two_pow_pos count
  have bitsPositive := Nat.two_pow_pos bits
  have room : 2 ^ bits ≤ 2 ^ count * 2 ^ bits := Nat.le_mul_of_pos_left _ countPositive
  rw [Nat.sub_mul, Nat.one_mul, Nat.pow_add]
  omega

/-- A field below bit `total` does not see what lies above it. -/
theorem field_mod {total shift : Nat} (room : shift + bits ≤ total) (value : Nat) :
    value % 2 ^ total / 2 ^ shift % 2 ^ bits = value / 2 ^ shift % 2 ^ bits := by
  have split : 2 ^ total = 2 ^ shift * 2 ^ (total - shift) := by
    rw [← Nat.pow_add]
    congr 1
    omega
  have divides : 2 ^ bits ∣ 2 ^ (total - shift) := Nat.pow_dvd_pow 2 (by omega)
  rw [split, Nat.mod_mul_right_div_self, Nat.mod_mod_of_dvd _ divides]

end Ferroid.Library.BitField
