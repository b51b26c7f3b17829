import Ferroid.Generator.Ulid.BasicMono
import Ferroid.Time.Ticker

/-!
Contract: `Ulid::new_ulid` and `Ulid::new_ulid_mono`, called from any threads of a process.

Owns `BasicUlidGenerator`, the two generators that every thread has for itself, the clock
they all share, and what a thread can rely on while the ticker and the other threads do
what they want: its monotonic IDs increase, its plain IDs follow the clock, and a
monotonic ID waits for nothing but a full random field.

Does not own uniqueness across threads; it rests on the random source.
-/

namespace Ferroid.Generator

open Ferroid.Id
open Ferroid.Library
open Ferroid.Time

/-! ## The plain generator -/

/-- `BasicUlidGenerator::poll_id`: the clock reading and a random number. -/
def BasicUlidGenerator.pollId {layout : UlidLayout} (now rand : layout.Ty) : UlidPoll layout :=
  .ready (UlidId.fromComponents now rand)

/-- `Ulid::new_ulid`; `none` where the source has `unreachable!`. -/
def newUlid (now rand : ULID.Ty) : Option (UlidId ULID) :=
  match BasicUlidGenerator.pollId now rand with
  | .ready id => some id
  | .pending _ => none

/-- The plain generator never asks to wait. -/
theorem newUlid_eq (now rand : ULID.Ty) :
    newUlid now rand = some (UlidId.fromComponents now rand) := rfl

/-! ## Threads -/

/-- `BASIC_ULID` has no state. `BASIC_MONO_ULID` has; the rest is what the thread has been
given: plain IDs, monotonic IDs, and how long `next_id` asked it to wait. -/
structure ThreadUlids where
  mono : BasicMonoUlidGenerator ULID
  ids : List (UlidId ULID)
  monoIds : List (UlidId ULID)
  waits : List ULID.Ty

def ThreadUlids.fresh : ThreadUlids := ⟨.new, [], [], []⟩

/-- What a thread does with a clock reading: a whole `new_ulid`, or one round of the loop
in `new_ulid_mono`. -/
inductive UlidCall where
  | newUlid (rand : ULID.Ty)
  | newUlidMono
deriving DecidableEq, Repr

/-- `GLOBAL_MONOTONIC_CLOCK` as a ULID reads it. -/
def readMillis (clock : MonotonicClock 1#64) (current : BitVec 64) : ULID.Ty :=
  clock.currentMillis 128 current

/-- One call, or one round of it; `rng` is each thread's random source. -/
def ThreadUlids.react {Thread : Type} (clock : MonotonicClock 1#64) (rng : Thread → Nat → ULID.Ty)
    (thread : Thread) (self : ThreadUlids) (current : BitVec 64) : UlidCall → ThreadUlids
  | .newUlid rand =>
      { self with ids := self.ids ++ (Generator.newUlid (readMillis clock current) rand).toList }
  | .newUlidMono =>
      match self.mono.pollId (rng thread) (readMillis clock current) with
      | (mono, .ready id) => { self with mono := mono, monoIds := self.monoIds ++ [id] }
      | (mono, .pending yieldFor) => { self with mono := mono, waits := self.waits ++ [yieldFor] }

/-- The whole process. -/
abbrev UlidProcess (Thread : Type) := Process Thread ThreadUlids

/-! ## Invariant of a thread -/

/-- The reading still fits the timestamp field. -/
def Fits (clock : MonotonicClock 1#64) (current : BitVec 64) : Prop :=
  clock.epochOffset.toNat + current.toNat < 2 ^ 48

/-- What holds of a thread whose last reading was that of `seen`. -/
structure ThreadOk (clock : MonotonicClock 1#64) (ulids : ThreadUlids) (seen : BitVec 64) :
    Prop where
  valid : ulids.mono.state.isValid = true
  notAhead : ulids.mono.state.timestamp ≤ readMillis clock seen
  monoIncreasing : ulids.monoIds.Pairwise (· < ·)
  monoUpTo : ∀ id ∈ ulids.monoIds, id.isValid = true ∧
    id.timestamp ≤ readMillis clock seen ∧ (id = ulids.mono.state ∨ id < ulids.mono.state)
  idsOrdered : (ulids.ids.map UlidId.timestamp).Pairwise (· ≤ ·)
  idsUpTo : ∀ id ∈ ulids.ids, id.isValid = true ∧ id.timestamp ≤ readMillis clock seen
  waitsOne : ∀ wait ∈ ulids.waits, wait = 1#_

section Readings

variable {clock : MonotonicClock 1#64} {seen current : BitVec 64}

theorem toNat_readMillis (fits : Fits clock current) :
    (readMillis clock current).toNat = clock.epochOffset.toNat + current.toNat := by
  have inside : clock.epochOffset.toNat + current.toNat < 2 ^ 64 :=
    Nat.lt_trans fits (by decide)
  have one : (1#64).toNat = 1 := rfl
  have read := clock.toNat_currentMillis_of_fits (by decide : 64 ≤ 128) inside
  rw [one, Nat.div_one] at read
  exact read

theorem readMillis_le_maxTimestamp (fits : Fits clock current) :
    readMillis clock current ≤ ULID.maxTimestamp := by
  rw [UlidLayout.le_maxTimestamp_iff, toNat_readMillis fits]
  exact fits

theorem Fits.earlier (fits : Fits clock current) (order : seen ≤ current) : Fits clock seen := by
  have before : seen.toNat ≤ current.toNat := order
  unfold Fits at *
  omega

theorem readMillis_mono (fits : Fits clock current) (order : seen ≤ current) :
    readMillis clock seen ≤ readMillis clock current := by
  have before : seen.toNat ≤ current.toNat := order
  show (readMillis clock seen).toNat ≤ (readMillis clock current).toNat
  rw [toNat_readMillis fits, toNat_readMillis (fits.earlier order)]
  omega

theorem timestamp_fromComponents_readMillis (fits : Fits clock current) (rand : ULID.Ty) :
    (UlidId.fromComponents (readMillis clock current) rand : UlidId ULID).timestamp =
      readMillis clock current := by
  apply BitVec.eq_of_toNat_eq
  rw [(UlidId.fields_fromComponents _ _).1]
  apply Nat.mod_eq_of_lt
  rw [toNat_readMillis fits]
  exact fits

/-- What holds of threads that read the clock in order, in a run that ends with the clock
in range: each thread's last reading fits, and is not ahead of the time that has passed. -/
theorem fits_of_run {Thread Local Input : Type} [DecidableEq Thread]
    {react : Thread → Local → BitVec 64 → Input → Local} {fresh : Thread → Local}
    (Holds : Thread → Local → BitVec 64 → Prop)
    (initially : ∀ thread, Holds thread (fresh thread) 0#64)
    (reacts : ∀ thread state seen value input, Holds thread state seen → seen ≤ value →
      Holds thread (react thread state value input) value)
    {events : List (Event Thread Input)} {final : Process Thread Local}
    (ran : Transition.run (Process.step react) (.start fresh) events = some final)
    (inRange : clock.epochOffset.toNat + final.ticker.elapsed / nanosPerMilli < 2 ^ 48)
    (thread : Thread) :
    ∃ seen, Fits clock seen ∧ seen.toNat ≤ final.ticker.elapsed / nanosPerMilli ∧
      Holds thread (final.locals thread) seen := by
  have tickerInRange : final.ticker.InRange := by
    unfold Ticker.InRange
    omega
  have ok := Process.Ok.run initially reacts ran tickerInRange
  obtain ⟨seen, _, member, holds⟩ := ok.sees thread
  have past := (Nat.le_div_iff_mul_le (by decide)).mpr (ok.ticker.past seen member)
  refine ⟨seen, ?_, past, holds⟩
  unfold Fits
  omega

end Readings

/-! ## Steps of a thread -/

section Steps

variable {Thread : Type} {clock : MonotonicClock 1#64} {rng : Thread → Nat → ULID.Ty}
  {thread : Thread} {self : ThreadUlids} {seen current : BitVec 64}

theorem threadOk_fresh (clock : MonotonicClock 1#64) : ThreadOk clock .fresh 0#64 where
  valid := UlidId.isValid_fromComponents _ _
  notAhead := Nat.zero_le _
  monoIncreasing := List.Pairwise.nil
  monoUpTo := by simp [ThreadUlids.fresh]
  idsOrdered := List.Pairwise.nil
  idsUpTo := by simp [ThreadUlids.fresh]
  waitsOne := by simp [ThreadUlids.fresh]

/-- Time goes on. -/
theorem ThreadOk.later (ok : ThreadOk clock self seen) (fits : Fits clock current)
    (order : seen ≤ current) : ThreadOk clock self current := by
  have reading := readMillis_mono fits order
  refine { ok with
    notAhead := BitVec.le_trans ok.notAhead reading
    monoUpTo := fun id member => ?_
    idsUpTo := fun id member => ?_ }
  · obtain ⟨valid, upTo, newest⟩ := ok.monoUpTo id member
    exact ⟨valid, BitVec.le_trans upTo reading, newest⟩
  · obtain ⟨valid, upTo⟩ := ok.idsUpTo id member
    exact ⟨valid, BitVec.le_trans upTo reading⟩

theorem ThreadOk.newUlid (ok : ThreadOk clock self current) (fits : Fits clock current)
    (rand : ULID.Ty) : ThreadOk clock (self.react clock rng thread current (.newUlid rand))
      current := by
  have timestamp := timestamp_fromComponents_readMillis fits rand
  simp only [ThreadUlids.react, newUlid_eq, Option.toList_some]
  refine { ok with idsOrdered := ?_, idsUpTo := ?_ }
  · rw [List.map_append, List.map_singleton, List.pairwise_append]
    refine ⟨ok.idsOrdered, List.pairwise_singleton _ _, fun old member last isLast => ?_⟩
    obtain ⟨id, isId, rfl⟩ := List.mem_map.mp member
    rw [List.mem_singleton.mp isLast, timestamp]
    exact (ok.idsUpTo id isId).2
  · rw [List.forall_mem_append, List.forall_mem_singleton]
    refine ⟨ok.idsUpTo, UlidId.isValid_fromComponents _ _, ?_⟩
    rw [timestamp]
    exact BitVec.le_refl _

/-- What is not newer than the state is older than the next ID. -/
theorem lt_of_state {old state id : UlidId ULID} (newer : state < id)
    (bounded : old = state ∨ old < state) : old < id := by
  rcases bounded with rfl | older
  · exact newer
  · exact Trans.trans older newer

/-- A clock that is not behind keeps a caller waiting only for a full random field. -/
theorem wait_eq_one {source : Nat → ULID.Ty} {generator : BasicMonoUlidGenerator ULID}
    {now yieldFor : ULID.Ty} {outcome : BasicMonoUlidGenerator ULID × UlidPoll ULID}
    (polls : BasicMonoUlidGenerator.Polls source generator now outcome)
    (notBehind : generator.state.timestamp ≤ now) (pending : outcome.2 = .pending yieldFor) :
    yieldFor = 1#_ := by
  cases polls with
  | increment | rollover => cases pending
  | exhausted => exact (Poll.pending.inj pending).symm
  | behind earlier => exact absurd earlier (BitVec.not_lt.mpr notBehind)

theorem ThreadOk.newUlidMono (ok : ThreadOk clock self current) (fits : Fits clock current) :
    ThreadOk clock (self.react clock rng thread current .newUlidMono) current := by
  have inRange := readMillis_le_maxTimestamp fits
  have polls := BasicMonoUlidGenerator.polls_pollId (rng thread) self.mono
    (readMillis clock current)
  have validAfter := polls.isValid ok.valid
  simp only [ThreadUlids.react]
  split
  · next mono id polled =>
      rw [polled] at polls validAfter
      have newer := polls.lt inRange ok.valid rfl
      have timestamp := polls.timestamp inRange rfl
      have stored : mono.state = id := polls.stored rfl
      have upTo : id.timestamp ≤ readMillis clock current := by
        rw [timestamp]
        exact BitVec.le_refl _
      refine { ok with
        valid := validAfter
        notAhead := ?_
        monoIncreasing := ?_
        monoUpTo := ?_ }
      · rw [stored]
        exact upTo
      · rw [List.pairwise_append]
        refine ⟨ok.monoIncreasing, List.pairwise_singleton _ _, fun old member last isLast => ?_⟩
        rw [List.mem_singleton.mp isLast]
        exact lt_of_state newer (ok.monoUpTo old member).2.2
      · rw [List.forall_mem_append, List.forall_mem_singleton, stored]
        refine ⟨fun old member => ?_, ?_, upTo, Or.inl rfl⟩
        · obtain ⟨valid, before, newest⟩ := ok.monoUpTo old member
          exact ⟨valid, before, Or.inr (lt_of_state newer newest)⟩
        · rw [← stored]
          exact validAfter
  · next mono yieldFor polled =>
      rw [polled] at polls validAfter
      have unchanged : mono = self.mono := polls.unchanged ⟨yieldFor, rfl⟩
      subst unchanged
      refine { ok with waitsOne := ?_ }
      rw [List.forall_mem_append, List.forall_mem_singleton]
      refine ⟨ok.waitsOne, ?_⟩
      exact wait_eq_one polls ok.notAhead rfl

/-- What holds of a thread while its clock is in range. -/
def ThreadInOrder (clock : MonotonicClock 1#64) (_ : Thread) (ulids : ThreadUlids)
    (seen : BitVec 64) : Prop :=
  Fits clock seen → ThreadOk clock ulids seen

theorem ThreadInOrder.react (inOrder : ThreadInOrder clock thread self seen)
    (order : seen ≤ current) (call : UlidCall) :
    ThreadInOrder clock thread (self.react clock rng thread current call) current := by
  intro fits
  have ok := (inOrder (fits.earlier order)).later fits order
  cases call with
  | newUlid rand => exact ok.newUlid fits rand
  | newUlidMono => exact ok.newUlidMono fits

end Steps

/-- Any threads of a process make ULIDs while the ticker runs. For each thread: its
monotonic IDs increase; its plain IDs have non-decreasing timestamps; every ID is valid
and none is ahead of the time that has passed; and `new_ulid_mono` never waits more than
one millisecond at a time, since no thread ever sees its clock behind its own IDs. -/
theorem thread_ulids_in_order {Thread : Type} [DecidableEq Thread] (clock : MonotonicClock 1#64)
    (rng : Thread → Nat → ULID.Ty) (events : List (Event Thread UlidCall))
    (final : UlidProcess Thread)
    (ran : Transition.run (Process.step (ThreadUlids.react clock rng))
      (.start fun _ => .fresh) events = some final)
    (inRange : clock.epochOffset.toNat + final.ticker.elapsed / nanosPerMilli < 2 ^ 48) :
    ∀ thread,
      (final.locals thread).monoIds.Pairwise (· < ·) ∧
      ((final.locals thread).ids.map UlidId.timestamp).Pairwise (· ≤ ·) ∧
      (∀ id ∈ (final.locals thread).monoIds ++ (final.locals thread).ids, id.isValid = true ∧
        id.timestamp.toNat ≤
          clock.epochOffset.toNat + final.ticker.elapsed / nanosPerMilli) ∧
      ∀ wait ∈ (final.locals thread).waits, wait = 1#_ := by
  intro thread
  obtain ⟨seen, fits, past, inOrder⟩ := fits_of_run (ThreadInOrder clock)
    (fun _ _ => threadOk_fresh clock)
    (fun _ _ _ _ call inOrder order => inOrder.react order call) ran inRange thread
  have threadOk := inOrder fits
  refine ⟨threadOk.monoIncreasing, threadOk.idsOrdered, fun id isId => ?_, threadOk.waitsOne⟩
  have valid : id.isValid = true ∧ id.timestamp ≤ readMillis clock seen := by
    rcases List.mem_append.mp isId with isMono | isPlain
    · exact ⟨(threadOk.monoUpTo id isMono).1, (threadOk.monoUpTo id isMono).2.1⟩
    · exact threadOk.idsUpTo id isPlain
  have upTo : id.timestamp.toNat ≤ (readMillis clock seen).toNat := valid.2
  rw [toNat_readMillis fits] at upTo
  exact ⟨valid.1, by omega⟩

/-- A thread makes two monotonic IDs and a plain one; the second monotonic ID finds its
random field full and waits for the next millisecond. -/
def twoMonoRun : List (Event Bool UlidCall) :=
  [.advance, .advance, .advance, .advance, .pass 1000000, .advance, .advance, .advance, .advance,
    .use true 2 .newUlidMono, .use true 2 .newUlidMono, .use true 2 (.newUlid 7#_),
    .pass 1000000, .advance, .advance, .advance, .advance, .use true 3 .newUlidMono]

theorem thread_ulids_in_order_two_mono :
    ∃ final : UlidProcess Bool,
      Transition.run (Process.step (ThreadUlids.react (⟨1000#64, by decide⟩ : MonotonicClock 1#64)
        fun _ _ => -1#_)) (.start fun _ => .fresh) twoMonoRun = some final ∧
      (final.locals true).monoIds.length = 2 ∧ (final.locals true).waits = [1#_] ∧
      (final.locals true).monoIds.Pairwise (· < ·) := by
  have observed : (Transition.run (Process.step (ThreadUlids.react
      (⟨1000#64, by decide⟩ : MonotonicClock 1#64) fun _ _ => -1#_)) (.start fun _ => .fresh)
      twoMonoRun).map (fun final : UlidProcess Bool => ((final.locals true).monoIds.length,
        (final.locals true).waits, final.ticker.elapsed)) = some (2, [1#_], 2000000) := by
    decide +kernel
  obtain ⟨final, ran, seen⟩ := Option.map_eq_some_iff.mp observed
  simp only [Prod.mk.injEq] at seen
  obtain ⟨two, waited, elapsed⟩ := seen
  have inOrder := thread_ulids_in_order _ _ twoMonoRun final ran
    (by rw [elapsed]; decide +kernel) true
  exact ⟨final, ran, two, waited, inOrder.1⟩

end Ferroid.Generator
