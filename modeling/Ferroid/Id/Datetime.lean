import Ferroid.Id.Ulid

/-!
Contract: ULIDs from and to points in time.

Owns `datetime`, `from_timestamp_and_rand` and `from_datetime_and_rand`, the system time
they use, and what survives a conversion: the millisecond, its order, and nothing before
the Unix epoch.

Does not own the system clock that `now` reads or the random source.
-/

namespace Ferroid.Id

/-- `std::time::SystemTime`: nanoseconds since the Unix epoch, whole seconds of which fit
64 bits. -/
@[ext]
structure SystemTime where
  nanos : Int
  atLeast : -(2 ^ 63 * 1000000000) ≤ nanos
  lessThan : nanos < 2 ^ 63 * 1000000000

namespace SystemTime

def UNIX_EPOCH : SystemTime := ⟨0, by decide, by decide⟩

/-- `duration_since(UNIX_EPOCH)`; an error before the epoch. -/
def durationSinceEpoch (self : SystemTime) : Option Nat :=
  if 0 ≤ self.nanos then some self.nanos.toNat else none

/-- `UNIX_EPOCH + Duration::from_millis(millis)`. -/
def ofMillis (millis : BitVec 64) : SystemTime where
  nanos := millis.toNat * 1000000
  atLeast := by omega
  lessThan := by omega

/-- `unwrap_or(Duration::ZERO).as_millis()`. -/
def asMillis (self : SystemTime) : Nat :=
  self.durationSinceEpoch.getD 0 / 1000000

theorem asMillis_eq (self : SystemTime) : self.asMillis = self.nanos.toNat / 1000000 := by
  unfold asMillis durationSinceEpoch
  split
  · rfl
  · next before =>
      rw [Int.toNat_of_nonpos (by omega)]
      rfl

theorem asMillis_lt_of_nanos {self : SystemTime} {millis : Nat} (positive : 0 < millis)
    (inRange : self.nanos < millis * 1000000) : self.asMillis < millis := by
  rw [asMillis_eq]
  omega

/-- Milliseconds of a system time need less than 128 bits. -/
theorem asMillis_lt (self : SystemTime) : self.asMillis < 2 ^ 128 := by
  have bound := self.lessThan
  rw [asMillis_eq]
  omega

theorem asMillis_ofMillis (millis : BitVec 64) : (ofMillis millis).asMillis = millis.toNat := by
  rw [asMillis_eq]
  show ((millis.toNat : Int) * 1000000).toNat / 1000000 = _
  omega

end SystemTime

namespace UlidId

variable {layout : UlidLayout}

/-- `self.timestamp() as u64` milliseconds after the epoch. -/
def datetime (self : UlidId layout) : SystemTime :=
  .ofMillis (BitVec.setWidth 64 self.timestamp)

/-- `rand` is the number that the random source gives. -/
def fromTimestampAndRand (timestamp rand : layout.Ty) : UlidId layout :=
  fromComponents timestamp rand

/-- The source compiles for 128-bit layouts only, since `as_millis` is a `u128`. -/
def fromDatetimeAndRand (datetime : SystemTime) (rand : layout.Ty) : UlidId layout :=
  fromComponents (BitVec.ofNat layout.width datetime.asMillis) rand

theorem toNat_timestamp_fromDatetimeAndRand (wide : layout.width = 128) (time : SystemTime)
    (rand : layout.Ty) :
    (fromDatetimeAndRand time rand : UlidId layout).timestamp.toNat =
      time.asMillis % 2 ^ layout.timestampBits := by
  have bound := time.asMillis_lt
  rw [← wide] at bound
  rw [fromDatetimeAndRand, (fields_fromComponents _ _).1, BitVec.toNat_ofNat,
    Nat.mod_eq_of_lt bound]

/-- A timestamp of at most 64 bits is shown in full. -/
theorem asMillis_datetime (narrow : layout.timestampBits ≤ 64) (self : UlidId layout) :
    self.datetime.asMillis = self.timestamp.toNat := by
  have small := Nat.lt_of_lt_of_le self.timestamp_lt (Nat.pow_le_pow_right (by decide) narrow)
  rw [datetime, SystemTime.asMillis_ofMillis, BitVec.toNat_setWidth, Nat.mod_eq_of_lt small]

theorem nanos_datetime (narrow : layout.timestampBits ≤ 64) (self : UlidId layout) :
    self.datetime.nanos = self.timestamp.toNat * 1000000 := by
  have small := Nat.lt_of_lt_of_le self.timestamp_lt (Nat.pow_le_pow_right (by decide) narrow)
  show ((BitVec.setWidth 64 self.timestamp).toNat : Int) * 1000000 = _
  rw [BitVec.toNat_setWidth, Nat.mod_eq_of_lt small]

/-- ULIDs of a 128-bit layout with at most 64 bits of milliseconds. A ULID made at the
time of another has its timestamp. A time in range comes back cut to its millisecond, a
time before the epoch as the epoch, and of two times in range the one in the later
millisecond gives the greater ULID, whatever the random numbers. -/
theorem datetime_exact (layout : UlidLayout) (wide : layout.width = 128)
    (narrow : layout.timestampBits ≤ 64) :
    (∀ (id : UlidId layout) rand,
        (fromDatetimeAndRand id.datetime rand : UlidId layout).timestamp = id.timestamp) ∧
      (∀ (time : SystemTime) (rand : layout.Ty), 0 ≤ time.nanos →
        time.nanos < (2 ^ layout.timestampBits : Nat) * 1000000 →
          (fromDatetimeAndRand time rand : UlidId layout).datetime.nanos =
            time.nanos / 1000000 * 1000000) ∧
      (∀ (time : SystemTime) (rand : layout.Ty), time.nanos < 0 →
        (fromDatetimeAndRand time rand : UlidId layout).datetime = .UNIX_EPOCH) ∧
      ∀ (earlier later : SystemTime) (rand other : layout.Ty), 0 ≤ earlier.nanos →
        earlier.nanos / 1000000 < later.nanos / 1000000 →
          later.nanos < (2 ^ layout.timestampBits : Nat) * 1000000 →
            (fromDatetimeAndRand earlier rand : UlidId layout) < fromDatetimeAndRand later other := by
  have positive := Nat.two_pow_pos layout.timestampBits
  have timestamp := toNat_timestamp_fromDatetimeAndRand wide
  refine ⟨?_, ?_, ?_, ?_⟩
  · intro id rand
    apply BitVec.eq_of_toNat_eq
    rw [timestamp, asMillis_datetime narrow, Nat.mod_eq_of_lt id.timestamp_lt]
  · intro time rand nonneg inRange
    have fits := SystemTime.asMillis_lt_of_nanos positive inRange
    rw [nanos_datetime narrow, timestamp, Nat.mod_eq_of_lt fits, SystemTime.asMillis_eq]
    omega
  · intro time rand before
    apply SystemTime.ext
    have zero : time.asMillis = 0 := by
      rw [SystemTime.asMillis_eq]
      omega
    rw [nanos_datetime narrow, timestamp, zero, Nat.zero_mod]
    rfl
  · intro earlier later rand other nonneg order inRange
    have laterFits := SystemTime.asMillis_lt_of_nanos positive inRange
    have less : earlier.asMillis < later.asMillis := by
      rw [SystemTime.asMillis_eq, SystemTime.asMillis_eq]
      omega
    have earlierFits := Nat.lt_trans less laterFits
    apply (lt_iff_of_isValid (isValid_fromComponents _ _) (isValid_fromComponents _ _)).mpr
    left
    show (fromDatetimeAndRand earlier rand).timestamp.toNat <
      (fromDatetimeAndRand later other).timestamp.toNat
    rw [timestamp, timestamp, Nat.mod_eq_of_lt earlierFits, Nat.mod_eq_of_lt laterFits]
    exact less

/-- Half a millisecond before the end of the year 2000. -/
theorem datetime_exact_year_2000 :
    let time : SystemTime := ⟨978307199999500000, by decide, by decide⟩
    (fromDatetimeAndRand time 42#_ : UlidId ULID).datetime.nanos = 978307199999000000 := by
  intro time
  exact (datetime_exact ULID rfl (by decide)).2.1 time 42#_ (by decide) (by decide)

end UlidId

end Ferroid.Id
