import Ferroid.Id.Datetime
import Ferroid.Pg.Cast

/-!
Contract: times of PostgreSQL and times of the crate, through a ULID.

Owns that the casts of the extension and the constructors of the crate mean the same
time by the same ULID, and the one thing they treat differently: a time before the Unix
epoch, which the crate moves to the epoch and the extension refuses.

Does not own either side (`Pg.Cast`, `Id.Datetime`).
-/

namespace Ferroid.Pg

open Ferroid.Id (UlidId SystemTime)
open Ferroid.Library

/-- The ULID of a millisecond is the crate's ULID of any time in it, without random bits. -/
theorem fromInner_fromDatetimeAndRand (time : SystemTime) :
    ULID.fromInner (UlidId.fromDatetimeAndRand time 0#(Id.ULID.width)) = ulidAt time.asMillis :=
  rfl

/-- The extension and the crate agree. A timestamp casts to a ULID exactly when it is less
than a millisecond before the Unix epoch, or after it, and its microseconds fit, and then to
the ULID that the crate makes of the same time without random bits; and a ULID casts to the
time that the crate shows for it. -/
theorem casts_agree_with_datetime (pgrx : Pgrx) (documented : pgrx.Documented) :
    (∀ (ts : pgrx.TimestampWithTimeZone) (time : SystemTime),
        time.nanos = unixMicros pgrx ts * 1000 → ∀ ulid,
          (timestamptzToUlid pgrx ts = .ok ulid ↔
            -1000 < unixMicros pgrx ts ∧ unixMicros pgrx ts < 2 ^ 63 ∧
              ulid = ULID.fromInner (UlidId.fromDatetimeAndRand time 0#(Id.ULID.width)))) ∧
      ∀ ulid, ∃ ts, ulidToTimestamptz pgrx ulid = .ok ts ∧
        unixMicros pgrx ts * 1000 = ulid.toInner.datetime.nanos := by
  constructor
  · intro ts time same ulid
    rw [timestamptzToUlid_eq documented.toReadsBack, fromInner_fromDatetimeAndRand]
    by_cases large : 2 ^ 63 ≤ unixMicros pgrx ts
    · rw [if_pos large]
      constructor
      · intro refused
        cases refused
      · rintro ⟨_, fits, _⟩
        omega
    · rw [if_neg large]
      have negative : (unixMicros pgrx ts).tdiv 1000 < 0 ↔ unixMicros pgrx ts ≤ -1000 :=
        SignedInt.tdiv_neg_iff (by decide)
      by_cases before : unixMicros pgrx ts ≤ -1000
      · rw [if_pos (negative.mpr before)]
        constructor
        · intro refused
          cases refused
        · rintro ⟨above, _, _⟩
          omega
      · -- Truncation takes the last millisecond before the epoch to the epoch, as does the crate.
        have millis : ((unixMicros pgrx ts).tdiv 1000).toNat = time.asMillis := by
          rw [SignedInt.tdiv_of_neg_lt (Int.not_le.mp before), SystemTime.asMillis_eq, same]
          omega
        rw [if_neg fun below => before (negative.mp below), millis]
        constructor
        · intro accepted
          exact ⟨Int.not_le.mp before, Int.not_le.mp large, (Except.ok.inj accepted).symm⟩
        · rintro ⟨_, _, rfl⟩
          rfl
  · intro ulid
    obtain ⟨ts, cast, micros⟩ := ulidToTimestamptz_ok documented ulid
    refine ⟨ts, cast, ?_⟩
    rw [micros, UlidId.nanos_datetime (by decide)]
    show _ = (ulid.millis : Int) * 1000000
    omega

/-- Half a millisecond before the epoch the cast still succeeds. -/
theorem casts_agree_with_datetime_before_epoch :
    let ts : I64 := ⟨-946684800000500, by decide, by decide⟩
    let time : SystemTime := ⟨-500000, by decide, by decide⟩
    timestamptzToUlid Pgrx.bare ts =
      .ok (ULID.fromInner (UlidId.fromDatetimeAndRand time 0#(Id.ULID.width))) := by
  intro ts time
  exact ((casts_agree_with_datetime Pgrx.bare Pgrx.documented_bare).1 ts time (by decide) _).mpr
    ⟨by decide, by decide, rfl⟩

end Ferroid.Pg
