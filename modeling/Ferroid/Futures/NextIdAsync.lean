import Ferroid.Generator.Blocking
import Ferroid.Time.MonotonicClock

/-!
Contract: `try_next_id_async` over `MonotonicClock`, and the backoff of all four
generators with one caller.

Owns the conversion of requested units into a sleep, the asynchronous loop, and
the theorem that a Pending answer asks for no more and no less than what is
needed.

Does not own the runtime: a sleep is any change of the world.
-/

namespace Ferroid.Futures

open Ferroid.Id
open Ferroid.Generator
open Ferroid.Time
open Ferroid.Library.Retry
open Ferroid.Library.TickWait

variable {ID Err Generator World : Type} {width : Nat}

/-! ## Sleeping -/

/-- `ToU64`: narrower integers are widened, a `u128` saturates. -/
def toU64 (value : BitVec width) : BitVec 64 :=
  if value.toNat < 2 ^ 64 then BitVec.ofNat 64 value.toNat else BitVec.allOnes 64

/-- `u64::saturating_mul`. -/
def saturatingMul (left right : BitVec 64) : BitVec 64 :=
  if left.toNat * right.toNat < 2 ^ 64 then left * right else BitVec.allOnes 64

/-- The milliseconds to sleep for the requested units. -/
def backoffMillis (granularityMillis : BitVec 64) (yieldFor : BitVec width) : BitVec 64 :=
  saturatingMul (toU64 yieldFor) granularityMillis

theorem toNat_backoffMillis {granularityMillis : BitVec 64} {yieldFor : BitVec width}
    (positive : 0 < granularityMillis.toNat)
    (fits : yieldFor.toNat * granularityMillis.toNat < 2 ^ 64) :
    (backoffMillis granularityMillis yieldFor).toNat =
      yieldFor.toNat * granularityMillis.toNat := by
  have small : yieldFor.toNat < 2 ^ 64 :=
    lt_of_le_of_lt (Nat.le_mul_of_pos_right _ positive) fits
  have widened : (toU64 yieldFor).toNat = yieldFor.toNat := by
    rw [toU64, if_pos small, BitVec.toNat_ofNat, Nat.mod_eq_of_lt small]
  rw [backoffMillis, saturatingMul, if_pos (by rwa [widened]), BitVec.toNat_mul, widened,
    Nat.mod_eq_of_lt fits]

/-- `try_next_id_async`: the loop of `try_next_id` with a sleep as its callback. -/
def tryNextIdAsync (tryPollId : TryPoll ID Err Generator (BitVec width))
    (granularityMillis : BitVec 64) (currentMillis : TimeSource World (BitVec width))
    (sleepFor : BitVec 64 → World → World) (fuel : Nat) (generator : Generator) (world : World) :
    Option (Finished (Generator × World) (Except Err ID) (BitVec width)) :=
  tryNextId tryPollId currentMillis
    (fun yieldFor => sleepFor (backoffMillis granularityMillis yieldFor)) fuel generator world

/-- The clock read in a world in which the ticker shows `current`. -/
def clockSource {N : BitVec 64} (clock : MonotonicClock N) (current : World → BitVec 64) :
    TimeSource World (BitVec width) :=
  fun world => (clock.currentMillis width (current world), world)

/-- Each sleep of a call lasts as long as it was asked to, in milliseconds that a `u64`
holds, and the ticker has advanced by as much. -/
def SleepsAdvance {N : BitVec 64} (tryPollId : TryPoll ID Err Generator (BitVec width))
    (clock : MonotonicClock N) (current : World → BitVec 64)
    (sleepFor : BitVec 64 → World → World) (generator : Generator) (world : World) : Prop :=
  EveryWait (tryPollNow tryPollId (clockSource clock current))
    (callBack fun yieldFor => sleepFor (backoffMillis N yieldFor))
    (fun state yieldFor next => yieldFor.toNat * N.toNat < 2 ^ 64 ∧
      (current state.2).toNat + (backoffMillis N yieldFor).toNat ≤ (current next.2).toNat)
    (generator, world)

/-! ## Calls end -/

/-- A call ends within three polls, and with an ID unless the generator is broken. -/
def Ends (Healthy : Generator → Prop) (generator : Generator)
    (call : Nat → Option (Finished (Generator × World) (Except Err ID) (BitVec width))) : Prop :=
  ∀ fuel, 3 ≤ fuel → ∃ finished, call fuel = some finished ∧ finished.waited.length ≤ 2 ∧
    (Healthy generator → ∃ id, finished.result = .ok id)

/-- Every call of which each callback advances the clock ends. -/
def CallsEnd (tryPollId : TryPoll ID Err Generator (BitVec width)) (Healthy : Generator → Prop) :
    Prop :=
  ∀ (World : Type) (currentMillis : TimeSource World (BitVec width))
    (f : BitVec width → World → World) (generator : Generator) (world : World),
    CallbacksAdvance tryPollId currentMillis f generator world →
      Ends Healthy generator fun fuel => tryNextId tryPollId currentMillis f fuel generator world

/-- Every asynchronous call over a monotonic clock of which each sleep advances the
ticker ends. -/
def AsyncCallsEnd (tryPollId : TryPoll ID Err Generator (BitVec width))
    (Healthy : Generator → Prop) : Prop :=
  ∀ (N : BitVec 64) (clock : MonotonicClock N) (World : Type) (current : World → BitVec 64)
    (sleepFor : BitVec 64 → World → World) (generator : Generator) (world : World),
    SleepsAdvance tryPollId clock current sleepFor generator world →
      Ends Healthy generator fun fuel =>
        tryNextIdAsync tryPollId N (clockSource clock current) sleepFor fuel generator world

section Ends

variable {tryPollId : TryPoll ID Err Generator (BitVec width)}
  {timestamp : Generator → BitVec width} {Full Healthy : Generator → Prop}

theorem callsEnd (compares : ComparesTicks tryPollId timestamp Full Healthy) :
    CallsEnd tryPollId Healthy := by
  intro World currentMillis f generator world advance fuel enough
  apply compares.tryNextId_finishes _ enough
  intro requests final waits
  exact compares.waits_le_two advance waits

/-- A sleep in ticker steps. -/
theorem ticker_le_of_slept {N : BitVec 64} (clock : MonotonicClock N)
    {current : World → BitVec 64} {before after : World} {yieldFor : BitVec width}
    (slept : yieldFor.toNat * N.toNat < 2 ^ 64 ∧
      (current before).toNat + (backoffMillis N yieldFor).toNat ≤ (current after).toNat) :
    (current before).toNat + yieldFor.toNat * N.toNat ≤ (current after).toNat := by
  rw [← toNat_backoffMillis clock.granularity_pos slept.1]
  exact slept.2

theorem asyncCallsEnd (compares : ComparesTicks tryPollId timestamp Full Healthy)
    (wide : 64 ≤ width) : AsyncCallsEnd tryPollId Healthy := by
  intro N clock World current sleepFor generator world advance fuel enough
  apply compares.tryNextId_finishes _ enough
  intro requests final waits
  by_contra long
  obtain ⟨first, second, third, _, _, _, ⟨firstAsks, firstSlept⟩, ⟨secondAsks, secondSlept⟩,
    thirdAsks, thirdSlept⟩ := compares.of_three_waits advance waits (Nat.lt_of_not_le long)
  simp only [clockSource, clock.toNat_currentMillis wide] at firstAsks secondAsks thirdAsks
  exact firstAsks.not_thrice_wrapping clock.granularity_pos clock.epochOffset.isLt
    (BitVec.isLt _) (ticker_le_of_slept clock firstSlept) secondAsks
    (ticker_le_of_slept clock secondSlept) thirdAsks (ticker_le_of_slept clock thirdSlept)

end Ends

/-! ## All generators -/

/-- A Pending answer asks for the wait that is needed, and a caller that waits so is
served. -/
structure BackoffWorks (tryPollId : TryPoll ID Err Generator (BitVec width))
    (timestamp : Generator → BitVec width) (Full Healthy : Generator → Prop) : Prop where
  asks : ∀ generator after now yieldFor,
    tryPollId generator now = (after, .ok (.pending yieldFor)) →
      BackoffExact tryPollId timestamp Full generator now yieldFor
  ends : CallsEnd tryPollId Healthy

theorem backoffWorks {tryPollId : TryPoll ID Err Generator (BitVec width)}
    {timestamp : Generator → BitVec width} {Full Healthy : Generator → Prop}
    (compares : ComparesTicks tryPollId timestamp Full Healthy) :
    BackoffWorks tryPollId timestamp Full Healthy where
  asks _ _ _ _ pending := compares.backoffExact pending
  ends := callsEnd compares

/-- Every layout, every state, every reading and every random source. The library's
clock reads 64-bit and 128-bit time, and only the lock generators can be awaited. -/
theorem backoff_exact (snowflake : SnowflakeLayout) (ulid : UlidLayout) (rng : Nat → ulid.Ty) :
    BackoffWorks BasicSnowflakeGenerator.tryPollId
        (fun self : BasicSnowflakeGenerator snowflake => self.state.timestamp)
        (fun self => self.state.sequence = snowflake.maxSequence) (fun _ => True) ∧
      BackoffWorks LockSnowflakeGenerator.tryPollId
        (fun self : LockSnowflakeGenerator snowflake => self.state.timestamp)
        (fun self => self.state.sequence = snowflake.maxSequence)
        (fun self => self.poisoned = false) ∧
      BackoffWorks (BasicMonoUlidGenerator.tryPollId rng)
        (fun self : BasicMonoUlidGenerator ulid => self.state.timestamp)
        (fun self => self.state.random = ulid.maxRandom) (fun _ => True) ∧
      BackoffWorks (LockMonoUlidGenerator.tryPollId rng)
        (fun self : LockMonoUlidGenerator ulid => self.state.timestamp)
        (fun self => self.state.random = ulid.maxRandom) (fun self => self.poisoned = false) ∧
      (snowflake.width = 64 ∨ snowflake.width = 128 →
        AsyncCallsEnd LockSnowflakeGenerator.tryPollId
          (fun self : LockSnowflakeGenerator snowflake => self.poisoned = false)) ∧
      (ulid.width = 64 ∨ ulid.width = 128 →
        AsyncCallsEnd (LockMonoUlidGenerator.tryPollId rng)
          (fun self : LockMonoUlidGenerator ulid => self.poisoned = false)) := by
  have lockSnowflake := LockSnowflakeGenerator.comparesTicks snowflake
  have lockUlid := LockMonoUlidGenerator.comparesTicks rng
  refine ⟨backoffWorks (BasicSnowflakeGenerator.comparesTicks snowflake),
    backoffWorks lockSnowflake, backoffWorks (BasicMonoUlidGenerator.comparesTicks rng),
    backoffWorks lockUlid, fun width => asyncCallsEnd lockSnowflake ?_,
    fun width => asyncCallsEnd lockUlid ?_⟩
  · omega
  · omega

/-- One unit before tick 1000, with units of eight milliseconds. -/
def nearlyThere : MonotonicClock 8#64 := .withEpoch (by decide) 7992#64 0

/-- A clock that is behind an exhausted tick: the caller sleeps once to reach the tick
and once more to leave it. -/
theorem backoff_exact_sleeps_twice :
    let generator : LockSnowflakeGenerator SnowflakeTwitterId := .fromComponents 1000#_ 3#_ 4095#_
    let call := tryNextIdAsync LockSnowflakeGenerator.tryPollId 8#64
      (clockSource nearlyThere id) (fun millis ticker => ticker + millis) 3 generator 0#64
    call.map Finished.waited = some [1#_, 1#_] ∧
      ∃ finished id, call = some finished ∧ finished.result = .ok id := by
  intro generator call
  have waited : call.map Finished.waited = some [1#_, 1#_] := by
    decide +kernel
  refine ⟨waited, ?_⟩
  have slept : SleepsAdvance LockSnowflakeGenerator.tryPollId nearlyThere id
      (fun millis ticker => ticker + millis) generator 0#64 := by
    have behind : tryPollNow LockSnowflakeGenerator.tryPollId (clockSource nearlyThere id)
        (generator, 0#64) = ((generator, 0#64), .inr 1#_) := by
      decide +kernel
    have exhausted : tryPollNow LockSnowflakeGenerator.tryPollId (clockSource nearlyThere id)
        (generator, 8#64) = ((generator, 8#64), .inr 1#_) := by
      decide +kernel
    have ready : tryPollNow LockSnowflakeGenerator.tryPollId (clockSource nearlyThere id)
        (generator, 16#64) = ((⟨SnowflakeId.fromComponents 1001#_ 3#_ 0#_, false⟩, 16#64),
          .inl (.ok (SnowflakeId.fromComponents 1001#_ 3#_ 0#_))) := by
      decide +kernel
    refine EveryWait.of_wait behind ?_ (EveryWait.of_wait exhausted ?_ (.of_done ready))
    · decide +kernel
    · decide +kernel
  have awaited := (backoff_exact SnowflakeTwitterId ULID fun _ => 0#_).2.2.2.2.1 (Or.inl rfl)
  obtain ⟨finished, done, -, healthy⟩ := awaited 8#64 nearlyThere (BitVec 64) id
    (fun millis ticker => ticker + millis) generator 0#64 slept 3 (le_refl 3)
  obtain ⟨id, ok⟩ := healthy rfl
  exact ⟨finished, id, done, ok⟩

end Ferroid.Futures
