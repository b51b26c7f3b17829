import Ferroid.Library.SignedInt
import Ferroid.Pg.Ulid

/-!
Contract: the casts between ULIDs and PostgreSQL timestamps.

Owns `ulid_to_timestamptz` and `timestamptz_to_ulid` with their checked `i64`
arithmetic and error texts, in release semantics, what the two casts mean for
range queries and for the order of the stored bytes, and which of the past is
rejected.

Does not own `TimestampWithTimeZone`: the `pgrx` crate enters as a parameter with
its documented behaviour.
-/

namespace Ferroid.Pg

open Ferroid.Id (UlidId)
open Ferroid.Library

/-! ## The `pgrx` timestamps -/

abbrev I64 := SignedInt 63

/-- What the casts use of `pgrx`; `micros` is the microseconds since 2000-01-01
that a timestamp stores. -/
structure Pgrx where
  TimestampWithTimeZone : Type
  micros : TimestampWithTimeZone → I64
  tryFrom : I64 → Except String TimestampWithTimeZone
  tryInto : TimestampWithTimeZone → Except String I64

/-- Converting a timestamp back gives the microseconds that it stores. -/
structure Pgrx.ReadsBack (pgrx : Pgrx) : Prop where
  tryInto_eq : ∀ ts, pgrx.tryInto ts = .ok (pgrx.micros ts)

/-- PostgreSQL's finite timestamps are accepted, and what is accepted is stored as it
is. -/
structure Pgrx.Documented (pgrx : Pgrx) : Prop extends pgrx.ReadsBack where
  accepts : ∀ micros : I64, -211813488000000000 ≤ micros.val →
    micros.val ≤ 9223371331199999999 → ∃ ts, pgrx.tryFrom micros = .ok ts
  micros_tryFrom : ∀ micros ts, pgrx.tryFrom micros = .ok ts → pgrx.micros ts = micros

/-! ## The casts -/

def PG_EPOCH_OFFSET_MICROS : I64 := ⟨946684800000000, by decide, by decide⟩

def MICROS_PER_MILLI : I64 := ⟨1000, by decide, by decide⟩

/-- `unwrap_or_else(|| pgrx::error!(..))`. -/
def unwrapOrError {Value : Type} (message : String) : Option Value → Except String Value
  | none => .error message
  | some value => .ok value

@[simp] theorem unwrapOrError_some_bind {Value Result : Type} (message : String) (value : Value)
    (next : Value → Except String Result) :
    (unwrapOrError message (some value) >>= next) = next value :=
  rfl

@[simp] theorem unwrapOrError_none_bind {Value Result : Type} (message : String)
    (next : Value → Except String Result) :
    (unwrapOrError message none >>= next) = .error message :=
  rfl

/-- `self.timestamp() as i64`. -/
def ULID.timestamp (self : ULID) : I64 :=
  SignedInt.wrap 63 self.toInner.timestamp.toNat

/-- `u128::try_from` of an `i64`. -/
def u128TryFrom (v : I64) : Option Id.ULID.Ty :=
  if v.val < 0 then none else some (BitVec.ofNat Id.ULID.width v.val.toNat)

def ulidToTimestamptz (pgrx : Pgrx) (ulid : ULID) :
    Except String pgrx.TimestampWithTimeZone := do
  let ms := ulid.timestamp
  let unixMicros ← unwrapOrError "ULID timestamp overflow" (ms.checkedMul MICROS_PER_MILLI)
  let pgMicros ← unwrapOrError "timestamp underflow"
    (unixMicros.checkedSub PG_EPOCH_OFFSET_MICROS)
  (pgrx.tryFrom pgMicros).mapError fun e => "timestamp out of range: " ++ e

def timestamptzToUlid (pgrx : Pgrx) (ts : pgrx.TimestampWithTimeZone) : Except String ULID := do
  let pgMicros ← (pgrx.tryInto ts).mapError fun e => "invalid timestamp: " ++ e
  let unixMicros ← unwrapOrError "timestamp overflow"
    (pgMicros.checkedAdd PG_EPOCH_OFFSET_MICROS)
  let ms ← unwrapOrError "timestamp before Unix epoch (1970-01-01)"
    ((unixMicros.checkedDiv MICROS_PER_MILLI).bind u128TryFrom)
  return ULID.fromInner (UlidId.fromComponents ms 0#(Id.ULID.width))

/-- Microseconds since the Unix epoch, exactly. -/
def unixMicros (pgrx : Pgrx) (ts : pgrx.TimestampWithTimeZone) : Int :=
  (pgrx.micros ts).val + 946684800000000

/-! ## ULIDs by millisecond -/

/-- The ULID with zero random bits at a millisecond. -/
def ulidAt (ms : Nat) : ULID :=
  ULID.fromInner (UlidId.fromComponents (BitVec.ofNat Id.ULID.width ms) 0#(Id.ULID.width))

namespace ULID

/-- The millisecond that a ULID carries. -/
def millis (self : ULID) : Nat := self.toInner.timestamp.toNat

theorem millis_lt (self : ULID) : self.millis < 2 ^ 48 := self.toInner.timestamp_lt

theorem millis_eq_div (self : ULID) : self.millis = self.toInner.id.toNat / 2 ^ 80 := by
  have small : self.toInner.id.toNat / 2 ^ 80 < 2 ^ 48 := by
    apply Nat.div_lt_of_lt_mul
    rw [← Nat.pow_add]
    exact self.toInner.id.isLt
  rw [millis, UlidId.toNat_timestamp]
  exact Nat.mod_eq_of_lt small

theorem val_timestamp (self : ULID) : self.timestamp.val = self.millis := by
  have small := self.millis_lt
  apply SignedInt.val_wrap_of_fits
  · show _ ≤ (self.millis : Int)
    omega
  · show (self.millis : Int) < _
    omega

end ULID

/-- The millisecond is masked to 48 bits, the random bits are zero. -/
theorem toNat_ulidAt (ms : Nat) : (ulidAt ms).toInner.id.toNat = ms % 2 ^ 48 * 2 ^ 80 := by
  have masked : ms % 2 ^ 128 % 2 ^ 48 = ms % 2 ^ 48 :=
    Nat.mod_mod_of_dvd _ (Nat.pow_dvd_pow 2 (by decide))
  rw [ulidAt, ULID.toInner_fromInner, UlidId.toNat_fromComponents, UlidId.packed,
    BitVec.toNat_ofNat, BitVec.toNat_zero, Nat.zero_mod, Nat.add_zero]
  exact congrArg (· * 2 ^ 80) masked

theorem millis_ulidAt (ms : Nat) : (ulidAt ms).millis = ms % 2 ^ 48 := by
  rw [ULID.millis_eq_div, toNat_ulidAt, Nat.mul_div_cancel _ (Nat.two_pow_pos 80)]

/-- A ULID is at or after the first ULID of a millisecond exactly when its own
millisecond is. -/
theorem ulidAt_le_iff (ms : Nat) (ulid : ULID) :
    ulidAt ms ≤ ulid ↔ ms % 2 ^ 48 ≤ ulid.millis := by
  rw [ULID.le_iff, toNat_ulidAt, ULID.millis_eq_div, Nat.le_div_iff_mul_le (Nat.two_pow_pos 80)]

theorem ulidAt_lt_iff (left right : Nat) :
    ulidAt left < ulidAt right ↔ left % 2 ^ 48 < right % 2 ^ 48 := by
  rw [ULID.lt_iff]
  show (ulidAt left).toInner.id.toNat < (ulidAt right).toInner.id.toNat ↔ _
  rw [toNat_ulidAt, toNat_ulidAt]
  exact Nat.mul_lt_mul_right (Nat.two_pow_pos 80)

/-! ## What the casts compute -/

section Casts

variable {pgrx : Pgrx}

/-- No ULID is refused: 48 bits of milliseconds stay inside PostgreSQL's range. -/
theorem ulidToTimestamptz_ok (documented : pgrx.Documented) (ulid : ULID) :
    ∃ ts, ulidToTimestamptz pgrx ulid = .ok ts ∧ unixMicros pgrx ts = ulid.millis * 1000 := by
  have small := ulid.millis_lt
  have product : ulid.timestamp.checkedMul MICROS_PER_MILLI =
      some ⟨ulid.millis * 1000, by omega, by omega⟩ := by
    rw [SignedInt.checkedMul, ulid.val_timestamp]
    exact SignedInt.ofInt?_of_fits _ _
  have difference : SignedInt.checkedSub
      (⟨ulid.millis * 1000, by omega, by omega⟩ : I64) PG_EPOCH_OFFSET_MICROS =
        some ⟨ulid.millis * 1000 - 946684800000000, by omega, by omega⟩ :=
    SignedInt.ofInt?_of_fits _ _
  obtain ⟨ts, accepted⟩ := documented.accepts
    ⟨ulid.millis * 1000 - 946684800000000, by omega, by omega⟩
    (by show _ ≤ (ulid.millis : Int) * 1000 - 946684800000000; omega)
    (by show (ulid.millis : Int) * 1000 - 946684800000000 ≤ _; omega)
  refine ⟨ts, ?_, ?_⟩
  · rw [ulidToTimestamptz, product, unwrapOrError_some_bind, difference, unwrapOrError_some_bind,
      accepted]
    rfl
  · rw [unixMicros, documented.micros_tryFrom _ ts accepted]
    show (ulid.millis : Int) * 1000 - 946684800000000 + 946684800000000 = _
    omega

/-- The cast back looks at the sign after the truncating division, and at nothing
above `i64` overflow. -/
theorem timestamptzToUlid_eq (readsBack : pgrx.ReadsBack) (ts : pgrx.TimestampWithTimeZone) :
    timestamptzToUlid pgrx ts =
      if 2 ^ 63 ≤ unixMicros pgrx ts then .error "timestamp overflow"
      else if (unixMicros pgrx ts).tdiv 1000 < 0 then
        .error "timestamp before Unix epoch (1970-01-01)"
      else .ok (ulidAt ((unixMicros pgrx ts).tdiv 1000).toNat) := by
  have stored : (pgrx.tryInto ts).mapError (fun e => "invalid timestamp: " ++ e) =
      unwrapOrError "" (some (pgrx.micros ts)) := by
    rw [readsBack.tryInto_eq]
    rfl
  have lower := (pgrx.micros ts).lower
  rw [timestamptzToUlid, stored, unwrapOrError_some_bind]
  by_cases overflow : 2 ^ 63 ≤ unixMicros pgrx ts
  · have sum : (pgrx.micros ts).checkedAdd PG_EPOCH_OFFSET_MICROS = none :=
      dif_neg fun fits => absurd fits.2 (Int.not_lt.mpr overflow)
    rw [if_pos overflow, sum, unwrapOrError_none_bind]
  · have fits : -2 ^ 63 ≤ unixMicros pgrx ts ∧ unixMicros pgrx ts < 2 ^ 63 := by
      rw [unixMicros] at overflow ⊢
      omega
    have sum : (pgrx.micros ts).checkedAdd PG_EPOCH_OFFSET_MICROS =
        some ⟨unixMicros pgrx ts, fits.1, fits.2⟩ :=
      SignedInt.ofInt?_of_fits _ _
    have quotientFits := SignedInt.tdiv_fits ⟨unixMicros pgrx ts, fits.1, fits.2⟩
      (show (0 : Int) < 1000 by decide)
    have quotient : SignedInt.checkedDiv
        (⟨unixMicros pgrx ts, fits.1, fits.2⟩ : I64) MICROS_PER_MILLI =
          some ⟨(unixMicros pgrx ts).tdiv 1000, quotientFits.1, quotientFits.2⟩ := by
      rw [SignedInt.checkedDiv, if_neg (by decide)]
      exact SignedInt.ofInt?_of_fits _ _
    rw [if_neg overflow, sum, unwrapOrError_some_bind, quotient, Option.bind_some, u128TryFrom]
    by_cases negative : (unixMicros pgrx ts).tdiv 1000 < 0
    · rw [if_pos negative, if_pos negative, unwrapOrError_none_bind]
    · rw [if_neg negative, if_neg negative, unwrapOrError_some_bind]
      rfl

/-- From the Unix epoch on, what does not overflow is cast to its millisecond. -/
theorem timestamptzToUlid_of_nonneg (readsBack : pgrx.ReadsBack)
    {ts : pgrx.TimestampWithTimeZone} (nonneg : 0 ≤ unixMicros pgrx ts)
    (fits : unixMicros pgrx ts < 2 ^ 63) :
    timestamptzToUlid pgrx ts = .ok (ulidAt (unixMicros pgrx ts / 1000).toNat) := by
  have quotient : (unixMicros pgrx ts).tdiv 1000 = unixMicros pgrx ts / 1000 :=
    Int.tdiv_eq_ediv_of_nonneg nonneg
  have quotientNonneg : ¬ unixMicros pgrx ts / 1000 < 0 := by
    omega
  rw [timestamptzToUlid_eq readsBack, if_neg (Int.not_le.mpr fits), quotient,
    if_neg quotientNonneg]

/-- What the cast accepts from the Unix epoch on does not overflow. -/
theorem fits_of_accepted (readsBack : pgrx.ReadsBack) {ts : pgrx.TimestampWithTimeZone}
    {ulid : ULID} (accepted : timestamptzToUlid pgrx ts = .ok ulid) :
    unixMicros pgrx ts < 2 ^ 63 := by
  by_contra overflow
  rw [timestamptzToUlid_eq readsBack, if_pos (Int.not_lt.mp overflow)] at accepted
  cases accepted

end Casts

theorem random_ulidAt (ms : Nat) : (ulidAt ms).toInner.random = 0#(Id.ULID.width) := by
  apply BitVec.eq_of_toNat_eq
  rw [UlidId.toNat_random, toNat_ulidAt, BitVec.toNat_zero]
  exact Nat.mul_mod_left _ _

theorem ULID.timestamp_eq_iff (left right : ULID) :
    left.timestamp = right.timestamp ↔ left.millis = right.millis := by
  rw [SignedInt.ext_iff, left.val_timestamp, right.val_timestamp]
  exact Int.ofNat_inj

/-! ## Range queries -/

/-- Every ULID is cast to a timestamp and back to the least ULID of its
millisecond, and comparing a ULID with a cast timestamp compares the times. -/
theorem range_queries_exact (pgrx : Pgrx) (documented : pgrx.Documented) (u : ULID) :
    ∃ ts, ulidToTimestamptz pgrx u = .ok ts ∧
      (∃ first, timestamptzToUlid pgrx ts = .ok first ∧ first.timestamp = u.timestamp ∧
        first.toInner.random = 0#(Id.ULID.width) ∧
          ∀ other : ULID, other.timestamp = u.timestamp → first ≤ other) ∧
      ∀ bound, 0 ≤ unixMicros pgrx bound → unixMicros pgrx bound < 2 ^ 48 * 1000 →
        ∃ low, timestamptzToUlid pgrx bound = .ok low ∧
          (low ≤ u ↔ (pgrx.micros bound).val / 1000 * 1000 ≤ (pgrx.micros ts).val) := by
  have small := u.millis_lt
  obtain ⟨ts, cast, time⟩ := ulidToTimestamptz_ok documented u
  have backMillis : (unixMicros pgrx ts / 1000).toNat % 2 ^ 48 = u.millis := by
    omega
  refine ⟨ts, cast, ?_, ?_⟩
  · refine ⟨ulidAt (unixMicros pgrx ts / 1000).toNat, ?_, ?_, random_ulidAt _, ?_⟩
    · exact timestamptzToUlid_of_nonneg documented.toReadsBack (by omega) (by omega)
    · rw [ULID.timestamp_eq_iff, millis_ulidAt, backMillis]
    · intro other sameTimestamp
      rw [ulidAt_le_iff, backMillis, (ULID.timestamp_eq_iff other u).mp sameTimestamp]
  · intro bound nonneg below
    refine ⟨ulidAt (unixMicros pgrx bound / 1000).toNat, ?_, ?_⟩
    · exact timestamptzToUlid_of_nonneg documented.toReadsBack nonneg (by omega)
    · rw [ulidAt_le_iff]
      rw [unixMicros] at nonneg below time ⊢
      -- The epoch offset is a whole number of milliseconds, so it passes through the division.
      omega

/-! ## A concrete `pgrx` -/

/-- A finite timestamp, or one of the two infinities. -/
def isTimestamp (micros : I64) : Bool :=
  decide (-211813488000000000 ≤ micros.val ∧ micros.val ≤ 9223371331199999999) ||
    micros.val == -2 ^ 63 || micros.val == 2 ^ 63 - 1

/-- Timestamps as the bare `i64` that they store. -/
def Pgrx.bare : Pgrx where
  TimestampWithTimeZone := I64
  micros := id
  tryFrom := fun micros => if isTimestamp micros then .ok micros else .error "out of range"
  tryInto := .ok

theorem Pgrx.tryFrom_bare (micros : I64) : Pgrx.bare.tryFrom micros =
    if isTimestamp micros then .ok micros else .error "out of range" :=
  rfl

theorem Pgrx.readsBack_bare : Pgrx.bare.ReadsBack where
  tryInto_eq := fun _ => rfl

theorem Pgrx.documented_bare : Pgrx.bare.Documented where
  toReadsBack := Pgrx.readsBack_bare
  accepts := by
    intro micros lower upper
    have inside : isTimestamp micros = true := by
      simp [isTimestamp, lower, upper]
    exact ⟨micros, by rw [Pgrx.tryFrom_bare, if_pos inside]⟩
  micros_tryFrom := by
    intro micros ts accepted
    rw [Pgrx.tryFrom_bare] at accepted
    split at accepted
    · exact (Except.ok.inj accepted).symm
    · cases accepted

/-- One microsecond before 2025-01-01 10:00:00.001 UTC, as a bound on the ULID
with all bits set. -/
theorem range_queries_exact_bare :
    let bound : I64 := ⟨789040800000999, by decide, by decide⟩
    let u : ULID := ULID.fromInner (UlidId.fromRaw (BitVec.allOnes 128))
    ∃ ts low, ulidToTimestamptz Pgrx.bare u = .ok ts ∧
      timestamptzToUlid Pgrx.bare bound = .ok low ∧
      (low ≤ u ↔ 789040800000000 ≤ (Pgrx.bare.micros ts).val) := by
  intro bound u
  obtain ⟨ts, cast, _, bounds⟩ := range_queries_exact Pgrx.bare Pgrx.documented_bare u
  obtain ⟨low, castBound, compare⟩ := bounds bound (by decide) (by decide)
  exact ⟨ts, low, cast, castBound, compare⟩

/-! ## Order -/

/-- The cast repeats after `2 ^ 48` milliseconds; the number of repetitions before
a timestamp. -/
def era (pgrx : Pgrx) (ts : pgrx.TimestampWithTimeZone) : Int :=
  unixMicros pgrx ts / 1000 / 2 ^ 48

/-- Whole milliseconds of a timestamp since the beginning of its era. -/
def eraMillis (pgrx : Pgrx) (ts : pgrx.TimestampWithTimeZone) : Int :=
  unixMicros pgrx ts / 1000 % 2 ^ 48

/-- The cast keeps the order of two accepted timestamps, strictly from one
millisecond on, exactly when they lie in one era or the later one is further into
its own. -/
theorem timestamptzToUlid_keeps_order_iff (pgrx : Pgrx) (readsBack : pgrx.ReadsBack)
    (a b : pgrx.TimestampWithTimeZone) (ulidA ulidB : ULID)
    (ordered : (pgrx.micros a).val ≤ (pgrx.micros b).val) (sinceEpoch : 0 ≤ unixMicros pgrx a)
    (acceptedA : timestamptzToUlid pgrx a = .ok ulidA)
    (acceptedB : timestamptzToUlid pgrx b = .ok ulidB) :
    (ulidA ≤ ulidB ∧
        ((pgrx.micros a).val + 1000 ≤ (pgrx.micros b).val → ulidA < ulidB)) ↔
      era pgrx a = era pgrx b ∨ eraMillis pgrx a < eraMillis pgrx b := by
  have later : unixMicros pgrx a ≤ unixMicros pgrx b := by
    rw [unixMicros, unixMicros]
    omega
  have gap : (pgrx.micros a).val + 1000 ≤ (pgrx.micros b).val ↔
      unixMicros pgrx a + 1000 ≤ unixMicros pgrx b := by
    rw [unixMicros, unixMicros]
    omega
  have fitsA := fits_of_accepted readsBack acceptedA
  have fitsB := fits_of_accepted readsBack acceptedB
  rw [timestamptzToUlid_of_nonneg readsBack sinceEpoch fitsA] at acceptedA
  rw [timestamptzToUlid_of_nonneg readsBack (le_trans sinceEpoch later) fitsB] at acceptedB
  rw [← Except.ok.inj acceptedA, ← Except.ok.inj acceptedB]
  rw [ulidAt_le_iff, millis_ulidAt, ulidAt_lt_iff, gap, era, era, eraMillis, eraMillis]
  omega

/-- Two accepted timestamps of the year 2025 and one day later. -/
theorem timestamptzToUlid_keeps_order_iff_bare :
    let a : I64 := ⟨789040800000999, by decide, by decide⟩
    let b : I64 := ⟨789127200000999, by decide, by decide⟩
    ∃ ulidA ulidB, timestamptzToUlid Pgrx.bare a = .ok ulidA ∧
      timestamptzToUlid Pgrx.bare b = .ok ulidB ∧ ulidA ≤ ulidB ∧ ulidA < ulidB := by
  intro a b
  have acceptedA : timestamptzToUlid Pgrx.bare a = _ :=
    timestamptzToUlid_of_nonneg Pgrx.readsBack_bare (by decide) (by decide)
  have acceptedB : timestamptzToUlid Pgrx.bare b = _ :=
    timestamptzToUlid_of_nonneg Pgrx.readsBack_bare (by decide) (by decide)
  have keeps := (timestamptzToUlid_keeps_order_iff Pgrx.bare Pgrx.readsBack_bare a b _ _
    (by decide) (by decide) acceptedA acceptedB).mpr (Or.inl (by decide))
  exact ⟨_, _, acceptedA, acceptedB, keeps.1, keeps.2 (by decide)⟩

/-- The last millisecond that a ULID holds and the next one, both accepted: the
later timestamp is cast to the ULID of the Unix epoch. -/
theorem timestamptzToUlid_wraps_at_year_10889 :
    let a : I64 := ⟨280528291910655000, by decide, by decide⟩
    let b : I64 := ⟨280528291910656000, by decide, by decide⟩
    ∃ ulidA ulidB, timestamptzToUlid Pgrx.bare a = .ok ulidA ∧
      timestamptzToUlid Pgrx.bare b = .ok ulidB ∧ 0 ≤ unixMicros Pgrx.bare a ∧
      (Pgrx.bare.micros a).val + 1000 ≤ (Pgrx.bare.micros b).val ∧ ¬ ulidA ≤ ulidB ∧
      ulidB.timestamp.val = 0 := by
  intro a b
  have acceptedA : timestamptzToUlid Pgrx.bare a = _ :=
    timestamptzToUlid_of_nonneg Pgrx.readsBack_bare (by decide) (by decide)
  have acceptedB : timestamptzToUlid Pgrx.bare b = _ :=
    timestamptzToUlid_of_nonneg Pgrx.readsBack_bare (by decide) (by decide)
  refine ⟨_, _, acceptedA, acceptedB, by decide, by decide, ?_, ?_⟩
  · rw [ulidAt_le_iff, millis_ulidAt]
    decide
  · rw [ULID.val_timestamp, millis_ulidAt]
    decide

/-! ## The past -/

section Past

variable {pgrx : Pgrx} {ts : pgrx.TimestampWithTimeZone}

/-- The error that names the epoch is raised from one whole millisecond before it
on. -/
theorem timestamptzToUlid_before_iff (readsBack : pgrx.ReadsBack) :
    timestamptzToUlid pgrx ts = .error "timestamp before Unix epoch (1970-01-01)" ↔
      unixMicros pgrx ts ≤ -1000 := by
  rw [timestamptzToUlid_eq readsBack, ← SignedInt.tdiv_neg_iff (show (0 : Int) < 1000 by decide)]
  by_cases negative : (unixMicros pgrx ts).tdiv 1000 < 0
  · have fits : ¬ 2 ^ 63 ≤ unixMicros pgrx ts := by
      rw [SignedInt.tdiv_neg_iff (by decide)] at negative
      omega
    rw [if_neg fits, if_pos negative]
    exact iff_of_true rfl negative
  · apply iff_of_false _ negative
    rw [if_neg negative]
    split
    · intro otherMessage
      exact absurd (Except.error.inj otherMessage) (by decide)
    · intro impossible
      cases impossible

/-- What is accepted is later than one millisecond before the epoch. -/
theorem above_of_accepted (readsBack : pgrx.ReadsBack) {ulid : ULID}
    (accepted : timestamptzToUlid pgrx ts = .ok ulid) : -1000 < unixMicros pgrx ts := by
  by_contra below
  rw [(timestamptzToUlid_before_iff readsBack).mpr (Int.not_lt.mp below)] at accepted
  cases accepted

/-- An accepted timestamp that a ULID can hold is cast to its millisecond, the last
millisecond before the epoch to the epoch itself. -/
theorem val_timestamp_of_accepted (readsBack : pgrx.ReadsBack) {ulid : ULID}
    (accepted : timestamptzToUlid pgrx ts = .ok ulid)
    (below : unixMicros pgrx ts < 2 ^ 48 * 1000) :
    ulid.timestamp.val = max (unixMicros pgrx ts) 0 / 1000 := by
  have fits := fits_of_accepted readsBack accepted
  have above := above_of_accepted readsBack accepted
  have quotientNonneg : ¬ max (unixMicros pgrx ts) 0 / 1000 < 0 := by
    omega
  rw [timestamptzToUlid_eq readsBack, if_neg (Int.not_le.mpr fits),
    SignedInt.tdiv_of_neg_lt above, if_neg quotientNonneg] at accepted
  rw [← Except.ok.inj accepted, ULID.val_timestamp, millis_ulidAt]
  omega

end Past

/-- The cast rejects exactly the past, and cuts what it accepts to the millisecond
below, exactly when the timestamp is not within the last 999 microseconds before
the epoch. -/
theorem timestamptzToUlid_rejects_past_iff (pgrx : Pgrx) (readsBack : pgrx.ReadsBack)
    (ts : pgrx.TimestampWithTimeZone) :
    ((timestamptzToUlid pgrx ts = .error "timestamp before Unix epoch (1970-01-01)" ↔
          unixMicros pgrx ts < 0) ∧
        ∀ ulid, timestamptzToUlid pgrx ts = .ok ulid → unixMicros pgrx ts < 2 ^ 48 * 1000 →
          ulid.timestamp.val * 1000 ≤ unixMicros pgrx ts ∧
            unixMicros pgrx ts < ulid.timestamp.val * 1000 + 1000) ↔
      unixMicros pgrx ts ≤ -1000 ∨ 0 ≤ unixMicros pgrx ts := by
  rw [timestamptzToUlid_before_iff readsBack]
  constructor
  · intro exactly
    have rejects := exactly.1
    omega
  · intro outside
    refine ⟨by omega, ?_⟩
    intro ulid accepted below
    have above := above_of_accepted readsBack accepted
    have cut := val_timestamp_of_accepted readsBack accepted below
    omega

/-- Both infinities and a time of the year 2025. -/
theorem timestamptzToUlid_rejects_past_iff_bare :
    let negativeInfinity : I64 := ⟨-2 ^ 63, by decide, by decide⟩
    let infinity : I64 := ⟨2 ^ 63 - 1, by decide, by decide⟩
    let later : I64 := ⟨789040800000999, by decide, by decide⟩
    timestamptzToUlid Pgrx.bare negativeInfinity =
        .error "timestamp before Unix epoch (1970-01-01)" ∧
      timestamptzToUlid Pgrx.bare infinity ≠
        .error "timestamp before Unix epoch (1970-01-01)" ∧
      ∃ ulid, timestamptzToUlid Pgrx.bare later = .ok ulid ∧
        ulid.timestamp.val * 1000 ≤ unixMicros Pgrx.bare later ∧
        unixMicros Pgrx.bare later < ulid.timestamp.val * 1000 + 1000 := by
  intro negativeInfinity infinity later
  have rejected := (timestamptzToUlid_rejects_past_iff Pgrx.bare Pgrx.readsBack_bare
    negativeInfinity).mpr (Or.inl (by decide))
  have notPast := (timestamptzToUlid_rejects_past_iff Pgrx.bare Pgrx.readsBack_bare
    infinity).mpr (Or.inr (by decide))
  have cut := (timestamptzToUlid_rejects_past_iff Pgrx.bare Pgrx.readsBack_bare
    later).mpr (Or.inr (by decide))
  have accepted : timestamptzToUlid Pgrx.bare later = _ :=
    timestamptzToUlid_of_nonneg Pgrx.readsBack_bare (by decide) (by decide)
  refine ⟨rejected.1.mpr (by decide), ?_, _, accepted, cut.2 _ accepted (by decide)⟩
  intro past
  exact absurd (notPast.1.mp past) (by decide)

/-- One microsecond before 1970-01-01 00:00:00 UTC is in the past, and is cast to
the ULID of the epoch. -/
theorem timestamptzToUlid_accepts_last_microsecond :
    let ts : I64 := ⟨-946684800000001, by decide, by decide⟩
    unixMicros Pgrx.bare ts < 0 ∧
      timestamptzToUlid Pgrx.bare ts ≠ .error "timestamp before Unix epoch (1970-01-01)" ∧
      ∃ ulid, timestamptzToUlid Pgrx.bare ts = .ok ulid ∧ ulid.timestamp.val = 0 ∧
        ¬ ulid.timestamp.val * 1000 ≤ unixMicros Pgrx.bare ts := by
  intro ts
  have accepted : timestamptzToUlid Pgrx.bare ts = .ok (ulidAt 0) := by
    apply (timestamptzToUlid_eq Pgrx.readsBack_bare ts).trans
    apply (if_neg (show ¬ 2 ^ 63 ≤ unixMicros Pgrx.bare ts by decide)).trans
    exact if_neg (show ¬ (unixMicros Pgrx.bare ts).tdiv 1000 < 0 by decide)
  have epoch : (ulidAt 0).timestamp.val = 0 := by
    rw [ULID.val_timestamp, millis_ulidAt]
    decide
  refine ⟨by decide, ?_, _, accepted, epoch, ?_⟩
  · rw [accepted]
    intro impossible
    cases impossible
  · rw [epoch]
    decide

end Ferroid.Pg
