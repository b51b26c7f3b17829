import Ferroid.Generator.Ulid.ThreadLocal
import Ferroid.Pg.Cast

/-!
Contract: the rows that PostgreSQL backends fill with `gen_ulid()` and `gen_ulid_mono()`.

Owns the two generating functions of the extension, the rows a backend inserts with them
and the clock reading of each, that they are the generators of the thread and nothing
else, and what the index order of the rows says: monotonic rows sort as they were
inserted, and a query from a timestamp on finds exactly the rows generated since.

Does not own the generators (`Generator.Ulid.ThreadLocal`) or the casts (`Pg.Cast`).
-/

namespace Ferroid.Pg

open Ferroid.Generator
open Ferroid.Id (UlidId)
open Ferroid.Library
open Ferroid.Time

instance (left right : ULID) : Decidable (left ≤ right) :=
  inferInstanceAs (Decidable (left.bytes ≤ right.bytes))

/-! ## Backends -/

/-- A row, the function that filled it, and the millisecond on the clock when it did. -/
structure Row where
  monotonic : Bool
  reading : Nat
  ulid : ULID

/-- A backend: the generator of its thread, the rows it has inserted, and how long each
round of `gen_ulid_mono` was told to wait. -/
structure Backend where
  mono : BasicMonoUlidGenerator Id.ULID
  rows : List Row
  waits : List Id.ULID.Ty

namespace Backend

def fresh : Backend := ⟨.new, [], []⟩

def insert (self : Backend) (monotonic : Bool) (now : Id.ULID.Ty) (id : InnerULID) : Backend :=
  { self with rows := self.rows ++ [⟨monotonic, now.toNat, ULID.fromInner id⟩] }

/-- `gen_ulid`, or one round of the loop in `gen_ulid_mono`, into a new row. -/
def react {Thread : Type} (clock : MonotonicClock 1#64) (rng : Thread → Nat → Id.ULID.Ty)
    (thread : Thread) (self : Backend) (current : BitVec 64) : UlidCall → Backend
  | .newUlid rand =>
      match newUlid (readMillis clock current) rand with
      | some id => self.insert false (readMillis clock current) id
      | none => self
  | .newUlidMono =>
      match self.mono.pollId (rng thread) (readMillis clock current) with
      | (mono, .ready id) => { self with mono := mono }.insert true (readMillis clock current) id
      -- The extension yields the thread, however long it is told to wait.
      | (mono, .pending yieldFor) => { self with mono := mono, waits := self.waits ++ [yieldFor] }

/-! ## A backend is a thread -/

def inserted (monotonic : Bool) (self : Backend) : List ULID :=
  (self.rows.filter fun row => row.monotonic == monotonic).map Row.ulid

/-- The generators of the thread, as its rows show them. -/
def toThread (self : Backend) : ThreadUlids where
  mono := self.mono
  ids := (self.inserted false).map ULID.toInner
  monoIds := (self.inserted true).map ULID.toInner
  waits := self.waits

section React

variable {Thread : Type} {clock : MonotonicClock 1#64} {rng : Thread → Nat → Id.ULID.Ty}
  {thread : Thread} {self : Backend} {seen current : BitVec 64}

theorem inserted_insert_self (self : Backend) (monotonic : Bool) (now : Id.ULID.Ty)
    (id : InnerULID) :
    (self.insert monotonic now id).inserted monotonic =
      self.inserted monotonic ++ [ULID.fromInner id] := by
  unfold insert inserted
  rw [List.filter_append, List.map_append, List.filter_singleton, beq_self_eq_true]
  rfl

theorem inserted_insert_not (self : Backend) (monotonic : Bool) (now : Id.ULID.Ty)
    (id : InnerULID) :
    (self.insert monotonic now id).inserted (!monotonic) = self.inserted (!monotonic) := by
  have other : (monotonic == !monotonic) = false := by
    cases monotonic <;> rfl
  unfold insert inserted
  rw [List.filter_append, List.map_append, List.filter_singleton, other]
  exact List.append_nil _

/-- The functions of the extension do what those of the thread do. -/
theorem toThread_react (call : UlidCall) :
    (self.react clock rng thread current call).toThread =
      self.toThread.react clock rng thread current call := by
  cases call with
  | newUlid rand =>
      simp only [react, ThreadUlids.react, newUlid_eq, Option.toList_some, toThread]
      rw [inserted_insert_self, show true = !false from rfl, inserted_insert_not,
        List.map_append, List.map_singleton, ULID.toInner_fromInner]
      rfl
  | newUlidMono =>
      have sameMono : self.toThread.mono = self.mono := rfl
      simp only [react, ThreadUlids.react, sameMono]
      rcases polled : self.mono.pollId (rng thread) (readMillis clock current) with ⟨mono, outcome⟩
      cases outcome with
      | pending yieldFor => rfl
      | ready id =>
          simp only [toThread]
          rw [inserted_insert_self, show false = !true from rfl, inserted_insert_not,
            List.map_append, List.map_singleton, ULID.toInner_fromInner]
          rfl

/-- A call inserts at most one row, and its ULID carries the reading of the clock. -/
theorem rows_react (rng : Thread → Nat → Id.ULID.Ty) (thread : Thread) (self : Backend)
    (fits : Fits clock current) (call : UlidCall) :
    (self.react clock rng thread current call).rows = self.rows ∨
      ∃ row, (self.react clock rng thread current call).rows = self.rows ++ [row] ∧
        row.reading = (readMillis clock current).toNat ∧ row.ulid.millis = row.reading := by
  have carries : ∀ id : InnerULID, id.timestamp = readMillis clock current →
      (ULID.fromInner id).millis = (readMillis clock current).toNat := by
    intro id timestamp
    rw [ULID.millis, ULID.toInner_fromInner, timestamp]
  cases call with
  | newUlid rand =>
      exact Or.inr ⟨_, rfl, rfl, carries _ (timestamp_fromComponents_readMillis fits rand)⟩
  | newUlidMono =>
      have polls := BasicMonoUlidGenerator.polls_pollId (rng thread) self.mono
        (readMillis clock current)
      simp only [react]
      rcases polled : self.mono.pollId (rng thread) (readMillis clock current) with ⟨mono, outcome⟩
      rw [polled] at polls
      cases outcome with
      | pending yieldFor => exact Or.inl rfl
      | ready id =>
          have timestamp := polls.timestamp (readMillis_le_maxTimestamp fits) rfl
          exact Or.inr ⟨_, rfl, rfl, carries id timestamp⟩

/-! ## Invariant of a backend -/

/-- What holds of a backend whose last reading was that of `seen`. -/
structure Ok (clock : MonotonicClock 1#64) (backend : Backend) (seen : BitVec 64) : Prop where
  thread : ThreadOk clock backend.toThread seen
  readings : ∀ row ∈ backend.rows, row.ulid.millis = row.reading ∧
    row.reading ≤ (readMillis clock seen).toNat
  ordered : backend.rows.Pairwise fun earlier later => earlier.reading ≤ later.reading

/-- What holds of a backend while its clock is in range. -/
def InOrder (clock : MonotonicClock 1#64) (_ : Thread) (backend : Backend) (seen : BitVec 64) :
    Prop :=
  Fits clock seen → Ok clock backend seen

theorem ok_fresh (clock : MonotonicClock 1#64) : Ok clock fresh 0#64 where
  thread := threadOk_fresh clock
  readings := by simp [fresh]
  ordered := List.Pairwise.nil

theorem InOrder.react (inOrder : InOrder clock thread self seen) (order : seen ≤ current)
    (call : UlidCall) :
    InOrder clock thread (self.react clock rng thread current call) current := by
  intro fits
  have ok := inOrder (fits.earlier order)
  have later : (readMillis clock seen).toNat ≤ (readMillis clock current).toNat :=
    readMillis_mono fits order
  have threadOk : ThreadOk clock (self.react clock rng thread current call).toThread current := by
    rw [toThread_react]
    have threadInOrder : ThreadInOrder clock thread self.toThread seen := fun _ => ok.thread
    exact threadInOrder.react order call fits
  refine ⟨threadOk, ?_, ?_⟩
  · intro row member
    rcases rows_react rng thread self fits call with same | ⟨last, appended, reading, millis⟩
    · rw [same] at member
      exact ⟨(ok.readings row member).1, Nat.le_trans (ok.readings row member).2 later⟩
    · rw [appended, List.mem_append, List.mem_singleton] at member
      rcases member with old | rfl
      · exact ⟨(ok.readings row old).1, Nat.le_trans (ok.readings row old).2 later⟩
      · exact ⟨millis, Nat.le_of_eq reading⟩
  · rcases rows_react rng thread self fits call with same | ⟨last, appended, reading, millis⟩
    · rw [same]
      exact ok.ordered
    · rw [appended, List.pairwise_append]
      refine ⟨ok.ordered, List.pairwise_singleton _ _, fun old member isLast same => ?_⟩
      rw [List.mem_singleton.mp same, reading]
      exact Nat.le_trans (ok.readings old member).2 later

end React

end Backend

/-! ## Queries -/

/-- Rows in the order of their readings: those from a millisecond on are the last ones. -/
theorem filter_reading_eq_dropWhile {rows : List Row}
    (ordered : rows.Pairwise fun earlier later => earlier.reading ≤ later.reading)
    (millis : Nat) :
    (rows.filter fun row => millis ≤ row.reading) =
      rows.dropWhile fun row => row.reading < millis := by
  induction rows with
  | nil => rfl
  | cons row rest inductionHypothesis =>
      obtain ⟨before, restOrdered⟩ := List.pairwise_cons.mp ordered
      by_cases early : row.reading < millis
      · rw [List.filter_cons_of_neg (by simpa using early),
          List.dropWhile_cons_of_pos (by simpa using early)]
        exact inductionHypothesis restOrdered
      · rw [List.dropWhile_cons_of_neg (by simpa using early)]
        apply List.filter_eq_self.mpr
        intro member isMember
        have first : row.reading ≤ member.reading := by
          rcases List.mem_cons.mp isMember with rfl | later
          · exact Nat.le_refl _
          · exact before member later
        exact decide_eq_true (by omega)

/-- What the casts make of a timestamp selects the rows from its millisecond on. -/
theorem filter_ulidAt_eq {rows : List Row} (carry : ∀ row ∈ rows, row.ulid.millis = row.reading)
    {millis : Nat} (small : millis < 2 ^ 48) :
    (rows.filter fun row => ulidAt millis ≤ row.ulid) =
      rows.filter fun row => millis ≤ row.reading := by
  apply List.filter_congr
  intro row member
  rw [decide_eq_decide, ulidAt_le_iff, Nat.mod_eq_of_lt small, carry row member]

/-- Any backend generates rows while its ticker runs. Its monotonic rows are in the order
of the index, its readings of the clock never go back, and a query for the rows from a
timestamp on returns the rows it has inserted since that millisecond, and only those. -/
theorem generated_rows_in_order {Thread : Type} [DecidableEq Thread] (pgrx : Pgrx)
    (readsBack : pgrx.ReadsBack) (clock : MonotonicClock 1#64)
    (rng : Thread → Nat → Id.ULID.Ty) (events : List (Event Thread UlidCall))
    (final : Process Thread Backend)
    (ran : Transition.run (Process.step (Backend.react clock rng)) (.start fun _ => .fresh)
      events = some final)
    (inRange : clock.epochOffset.toNat + final.ticker.elapsed / nanosPerMilli < 2 ^ 48) :
    ∀ thread,
      ((final.locals thread).inserted true).Pairwise (· < ·) ∧
      ((final.locals thread).rows.Pairwise fun earlier later =>
        earlier.reading ≤ later.reading) ∧
      ∀ bound, 0 ≤ unixMicros pgrx bound → unixMicros pgrx bound < 2 ^ 48 * 1000 →
        ∃ low, timestamptzToUlid pgrx bound = .ok low ∧
          ((final.locals thread).rows.filter fun row => low ≤ row.ulid) =
            (final.locals thread).rows.dropWhile fun row =>
              row.reading < (unixMicros pgrx bound / 1000).toNat := by
  intro thread
  obtain ⟨seen, fits, _, inOrder⟩ := fits_of_run (Backend.InOrder clock)
    (fun _ _ => Backend.ok_fresh clock)
    (fun _ _ _ _ call inOrder order => inOrder.react order call) ran inRange thread
  have backendOk := inOrder fits
  refine ⟨?_, backendOk.ordered, fun bound nonneg below => ?_⟩
  · have increasing := List.pairwise_map.mp backendOk.thread.monoIncreasing
    exact increasing.imp fun less => (ULID.lt_iff _ _).mpr less
  · refine ⟨_, timestamptzToUlid_of_nonneg readsBack nonneg (by omega), ?_⟩
    rw [filter_ulidAt_eq (fun row isRow => (backendOk.readings row isRow).1) (by omega),
      filter_reading_eq_dropWhile backendOk.ordered]

/-- Three rows in two milliseconds; a query from the second one on finds the last row. -/
theorem generated_rows_in_order_second_milli :
    let bound : I64 := ⟨1002000 - 946684800000000, by decide, by decide⟩
    ∃ (final : Process Bool Backend) (low : ULID),
      Transition.run (Process.step (Backend.react (⟨1000#64, by decide⟩ : MonotonicClock 1#64)
        fun _ _ => -1#_)) (.start fun _ => .fresh) twoMonoRun = some final ∧
      timestamptzToUlid Pgrx.bare bound = .ok low ∧
      ((final.locals true).rows.filter fun row => low ≤ row.ulid).map Row.reading = [1002] := by
  intro bound
  have observed : (Transition.run (Process.step (Backend.react
      (⟨1000#64, by decide⟩ : MonotonicClock 1#64) fun _ _ => -1#_)) (.start fun _ => .fresh)
      twoMonoRun).map (fun final : Process Bool Backend => ((final.locals true).rows.map
        Row.reading, final.ticker.elapsed)) = some ([1001, 1001, 1002], 2000000) := by
    decide +kernel
  obtain ⟨final, ran, seen⟩ := Option.map_eq_some_iff.mp observed
  simp only [Prod.mk.injEq] at seen
  obtain ⟨readings, elapsed⟩ := seen
  have inOrder := generated_rows_in_order Pgrx.bare Pgrx.readsBack_bare _ _ twoMonoRun final ran
    (by rw [elapsed]; decide +kernel) true
  obtain ⟨low, cast, found⟩ := inOrder.2.2 bound (by decide) (by decide)
  refine ⟨final, low, ran, cast, ?_⟩
  have millis : (unixMicros Pgrx.bare bound / 1000).toNat = 1002 := by
    decide
  have dropped : ((final.locals true).rows.map Row.reading).dropWhile (fun reading =>
      reading < 1002) = [1002] := by
    rw [readings]
    decide
  rw [List.dropWhile_map] at dropped
  rw [found, millis]
  exact dropped

end Ferroid.Pg
