import Mathlib.Algebra.Order.Group.Nat

/-!
Contract: `MonotonicClock`, the clock that counts units of `N` milliseconds.

Owns `with_epoch` and `current_millis` for both backing integers, in release
semantics: the sum of offset and ticker wraps.

Does not own the background thread: what the ticker shows is an argument.
-/

namespace Ferroid.Time

/-- A clock of granularity `N`; its ticker is shared by the whole process. That `N`
is positive is asserted at compile time. -/
structure MonotonicClock (N : BitVec 64) where
  epochOffset : BitVec 64
  granularity_pos : 0 < N.toNat

namespace MonotonicClock

variable {N : BitVec 64}

/-- `base_system_now` is the wall clock at process start, `epoch` in milliseconds. -/
def withEpoch (granularity_pos : 0 < N.toNat) (baseSystemNow : BitVec 64) (epoch : Nat) :
    MonotonicClock N where
  epochOffset := BitVec.ofNat 64 (baseSystemNow.toNat - epoch % 2 ^ 64)
  granularity_pos := granularity_pos

/-- `current_millis` as `u64` (`width` 64) or, widened, as `u128` (`width` 128), when
the ticker shows `current`. -/
def currentMillis (self : MonotonicClock N) (width : Nat) (current : BitVec 64) : BitVec width :=
  ((self.epochOffset + current) / N).setWidth width

theorem toNat_currentMillis (self : MonotonicClock N) {width : Nat} (wide : 64 ≤ width)
    (current : BitVec 64) :
    (self.currentMillis width current).toNat =
      (self.epochOffset.toNat + current.toNat) % 2 ^ 64 / N.toNat := by
  have fits : ((self.epochOffset + current) / N).toNat < 2 ^ width :=
    lt_of_lt_of_le ((self.epochOffset + current) / N).isLt
      (Nat.pow_le_pow_right (by decide) wide)
  rw [currentMillis, BitVec.toNat_setWidth, Nat.mod_eq_of_lt fits, BitVec.toNat_udiv,
    BitVec.toNat_add]

end MonotonicClock

end Ferroid.Time
