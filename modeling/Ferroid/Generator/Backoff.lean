import Ferroid.Generator.Status
import Ferroid.Library.Retry
import Ferroid.Library.TickWait

/-!
Contract: the loops that wait as a Pending poll asks.

Owns `next_id` and `try_next_id` over an arbitrary time source and callback, what
it means that a poll compares its reading with a tick of its own, and from that
alone: the requested wait is the shortest that can help, and two of them are
enough.

Does not own the generators (`Generator.Blocking`) or the clock of the library
(`Time.MonotonicClock`).
-/

namespace Ferroid.Generator

open Ferroid.Library.Retry
open Ferroid.Library.TickWait

variable {ID Err Generator World : Type} {width : Nat}

/-- `TimeSource`: a reading may change what is read next. -/
abbrev TimeSource (World Ty : Type) := World → Ty × World

/-- `try_poll_id` of a generator, its clock reading made explicit. -/
abbrev TryPoll (ID Err Generator Ty : Type) := Generator → Ty → Generator × Except Err (Poll ID Ty)

/-- `try_poll_id` of a generator that cannot fail. -/
def infallible {Ty : Type} (pollId : Generator → Ty → Generator × Poll ID Ty) :
    TryPoll ID Err Generator Ty :=
  fun generator now => ((pollId generator now).1, .ok (pollId generator now).2)

/-- The body of the loops: read the clock and poll. A result ends the loop. -/
def tryPollNow {Ty : Type} (tryPollId : TryPoll ID Err Generator Ty)
    (currentMillis : TimeSource World Ty) (state : Generator × World) :
    (Generator × World) × (Except Err ID ⊕ Ty) :=
  let (now, world) := currentMillis state.2
  match tryPollId state.1 now with
  | (generator, .ok (.ready id)) => ((generator, world), .inl (.ok id))
  | (generator, .ok (.pending yieldFor)) => ((generator, world), .inr yieldFor)
  | (generator, .error error) => ((generator, world), .inl (.error error))

/-- The callback sees the requested units and leaves the generator alone. -/
def callBack {Ty : Type} (f : Ty → World → World) (yieldFor : Ty) (state : Generator × World) :
    Generator × World :=
  (state.1, f yieldFor state.2)

/-- `try_next_id`, for at most `fuel` polls; `next_id` is the same loop with an error
type without values. -/
def tryNextId {Ty : Type} (tryPollId : TryPoll ID Err Generator Ty)
    (currentMillis : TimeSource World Ty) (f : Ty → World → World) (fuel : Nat)
    (generator : Generator) (world : World) :
    Option (Finished (Generator × World) (Except Err ID) Ty) :=
  retry (tryPollNow tryPollId currentMillis) (callBack f) fuel (generator, world)

/-! ## Polls that compare ticks -/

/-- A poll compares its reading with the generator's own tick: behind it, it asks
for the difference; at a full tick, for one unit. A generator that is not healthy
answers every poll with an error. -/
structure ComparesTicks (tryPollId : TryPoll ID Err Generator (BitVec width))
    (timestamp : Generator → BitVec width) (Full Healthy : Generator → Prop) : Prop where
  width_pos : 0 < width
  behind : ∀ generator now, Healthy generator → now < timestamp generator →
    tryPollId generator now = (generator, .ok (.pending (timestamp generator - now)))
  exhausted : ∀ generator, Healthy generator → Full generator →
    tryPollId generator (timestamp generator) = (generator, .ok (.pending 1#(width)))
  ready : ∀ generator now, Healthy generator →
    timestamp generator < now ∨ now = timestamp generator ∧ ¬ Full generator →
    ∃ next id, tryPollId generator now = (next, .ok (.ready id))
  fails : ∀ generator now, ¬ Healthy generator →
    ∃ error, tryPollId generator now = (generator, .error error)

/-- A Pending answer asks for exactly the wait that is needed. -/
structure BackoffExact (tryPollId : TryPoll ID Err Generator (BitVec width))
    (timestamp : Generator → BitVec width) (Full : Generator → Prop) (generator : Generator)
    (now yieldFor : BitVec width) : Prop where
  positive : 1 ≤ yieldFor.toNat
  necessary : ∀ reading : BitVec width, now.toNat ≤ reading.toNat →
    reading.toNat < now.toNat + yieldFor.toNat →
    ∃ again, tryPollId generator reading = (generator, .ok (.pending again))
  sufficient : ∀ reading : BitVec width, now.toNat + yieldFor.toNat ≤ reading.toNat →
    ¬ (reading = timestamp generator ∧ Full generator) →
    ∃ next id, tryPollId generator reading = (next, .ok (.ready id))
  exhausted : ∀ reading : BitVec width, now.toNat + yieldFor.toNat ≤ reading.toNat →
    reading = timestamp generator ∧ Full generator →
    tryPollId generator reading = (generator, .ok (.pending 1#(width))) ∧
      ∀ later : BitVec width, reading.toNat + 1 ≤ later.toNat →
        ∃ next id, tryPollId generator later = (next, .ok (.ready id))

/-- Each callback of a call advances the clock by at least the units it is given. -/
def CallbacksAdvance (tryPollId : TryPoll ID Err Generator (BitVec width))
    (currentMillis : TimeSource World (BitVec width)) (f : BitVec width → World → World)
    (generator : Generator) (world : World) : Prop :=
  EveryWait (tryPollNow tryPollId currentMillis) (callBack f)
    (fun state yieldFor next =>
      (currentMillis state.2).1.toNat + yieldFor.toNat ≤ (currentMillis next.2).1.toNat)
    (generator, world)

section Spec

variable {tryPollId : TryPoll ID Err Generator (BitVec width)}
  {timestamp : Generator → BitVec width} {Full Healthy : Generator → Prop}

namespace ComparesTicks

/-- A healthy generator answers with an ID, or stays as it is and says why. -/
theorem outcome (compares : ComparesTicks tryPollId timestamp Full Healthy)
    {generator : Generator} (healthy : Healthy generator) (now : BitVec width) :
    (∃ next id, tryPollId generator now = (next, .ok (.ready id))) ∨
      ∃ yieldFor, tryPollId generator now = (generator, .ok (.pending yieldFor)) ∧
        Asks (timestamp generator).toNat (Full generator) now.toNat yieldFor.toNat := by
  rcases Nat.lt_trichotomy now.toNat (timestamp generator).toNat with earlier | same | later
  · have behind : now < timestamp generator := earlier
    refine Or.inr ⟨_, compares.behind generator now healthy behind, Or.inl ⟨earlier, ?_⟩⟩
    rw [BitVec.toNat_sub_of_le (BitVec.le_of_lt behind)]
    omega
  · have atTick : now = timestamp generator := BitVec.eq_of_toNat_eq same
    by_cases full : Full generator
    · have waits := compares.exhausted generator healthy full
      rw [← atTick] at waits
      refine Or.inr ⟨_, waits, Or.inr ⟨same, full, ?_⟩⟩
      rw [BitVec.toNat_ofNat, Nat.mod_eq_of_lt (Nat.one_lt_two_pow compares.width_pos.ne')]
    · exact Or.inl (compares.ready generator now healthy (Or.inr ⟨atTick, full⟩))
  · exact Or.inl (compares.ready generator now healthy (Or.inl later))

/-- What a Pending answer says about the generator and the reading. -/
theorem of_pending (compares : ComparesTicks tryPollId timestamp Full Healthy)
    {generator after : Generator} {now yieldFor : BitVec width}
    (pending : tryPollId generator now = (after, .ok (.pending yieldFor))) :
    after = generator ∧ Healthy generator ∧
      Asks (timestamp generator).toNat (Full generator) now.toNat yieldFor.toNat := by
  by_cases healthy : Healthy generator
  · rcases compares.outcome healthy now with ⟨next, id, ready⟩ | ⟨asked, waits, asks⟩
    · rw [ready] at pending
      cases pending
    · rw [waits] at pending
      cases pending
      exact ⟨rfl, healthy, asks⟩
  · obtain ⟨error, failed⟩ := compares.fails generator now healthy
    rw [failed] at pending
    cases pending

/-- A healthy generator is Pending up to its tick, and at it when it is full. -/
theorem pending (compares : ComparesTicks tryPollId timestamp Full Healthy)
    {generator : Generator} {now : BitVec width} (healthy : Healthy generator)
    (waits : now.toNat < (timestamp generator).toNat ∨
      now.toNat = (timestamp generator).toNat ∧ Full generator) :
    ∃ yieldFor, tryPollId generator now = (generator, .ok (.pending yieldFor)) := by
  rcases waits with earlier | ⟨same, full⟩
  · exact ⟨_, compares.behind generator now healthy earlier⟩
  · rw [BitVec.eq_of_toNat_eq same]
    exact ⟨_, compares.exhausted generator healthy full⟩

theorem backoffExact (compares : ComparesTicks tryPollId timestamp Full Healthy)
    {generator after : Generator} {now yieldFor : BitVec width}
    (pending : tryPollId generator now = (after, .ok (.pending yieldFor))) :
    BackoffExact tryPollId timestamp Full generator now yieldFor := by
  obtain ⟨-, healthy, asked⟩ := compares.of_pending pending
  have positive := asked.pos
  unfold Asks at asked
  constructor
  · exact positive
  · intro reading notEarlier early
    apply compares.pending healthy
    rcases asked with ⟨behind, difference⟩ | ⟨same, full, one⟩
    · exact Or.inl (by omega)
    · exact Or.inr ⟨by omega, full⟩
  · intro reading waited notFull
    apply compares.ready generator reading healthy
    have reached : (timestamp generator).toNat ≤ reading.toNat := by
      omega
    rcases Nat.lt_or_eq_of_le reached with later | same
    · exact Or.inl later
    · have atTick : reading = timestamp generator := (BitVec.eq_of_toNat_eq same).symm
      exact Or.inr ⟨atTick, fun full => notFull ⟨atTick, full⟩⟩
  · rintro reading waited ⟨rfl, full⟩
    refine ⟨compares.exhausted generator healthy full, fun later past => ?_⟩
    exact compares.ready generator later healthy (Or.inl past)

/-- The three-way comparison of `poll_id`, for whatever an increment and a rollover
store. -/
theorem of_compare {pollId : Generator → BitVec width → Generator × Poll ID (BitVec width)}
    {room : Generator → Bool} (increment : Generator → Generator × ID)
    (rollover : Generator → BitVec width → Generator × ID) (width_pos : 0 < width)
    (full_iff : ∀ generator, room generator = false ↔ Full generator)
    (polls : ∀ generator now, pollId generator now =
      match compare now.toNat (timestamp generator).toNat with
      | .eq =>
          if room generator then ((increment generator).1, .ready (increment generator).2)
          else (generator, .pending 1#(width))
      | .gt => ((rollover generator now).1, .ready (rollover generator now).2)
      | .lt => (generator, .pending (timestamp generator - now))) :
    ComparesTicks (infallible pollId : TryPoll ID Err Generator (BitVec width)) timestamp Full
      fun _ => True where
  width_pos := width_pos
  behind := by
    intro generator now _ earlier
    have order : compare now.toNat (timestamp generator).toNat = .lt :=
      Nat.compare_eq_lt.mpr earlier
    simp only [infallible, polls, order]
  exhausted := by
    intro generator _ full
    have order : compare (timestamp generator).toNat (timestamp generator).toNat = .eq :=
      Nat.compare_eq_eq.mpr rfl
    have noRoom : room generator = false := (full_iff generator).mpr full
    simp only [infallible, polls, order, noRoom, Bool.false_eq_true, if_false]
  ready := by
    intro generator now _ answered
    rcases answered with later | ⟨same, notFull⟩
    · have order : compare now.toNat (timestamp generator).toNat = .gt :=
        Nat.compare_eq_gt.mpr later
      simp only [infallible, polls, order]
      exact ⟨_, _, rfl⟩
    · have order : compare now.toNat (timestamp generator).toNat = .eq :=
        Nat.compare_eq_eq.mpr (congrArg BitVec.toNat same)
      have hasRoom : room generator = true := by
        rw [← Bool.not_eq_false, full_iff]
        exact notFull
      simp only [infallible, polls, order, hasRoom, if_true]
      exact ⟨_, _, rfl⟩
  fails := by
    intro generator now failed
    exact absurd trivial failed

/-- A generator that polls an inner one while it is healthy compares ticks as the
inner one does. -/
theorem lift {Outer InnerErr : Type}
    {pollId : Generator → BitVec width → Generator × Poll ID (BitVec width)}
    (compares : ComparesTicks (infallible pollId : TryPoll ID InnerErr Generator (BitVec width))
      timestamp Full fun _ => True)
    {tryPollOuter : TryPoll ID Err Outer (BitVec width)} {HealthyOuter : Outer → Prop}
    (inner : Outer → Generator) (rebuild : Outer → Generator → Outer)
    (same : ∀ outer, rebuild outer (inner outer) = outer)
    (polls : ∀ outer now, HealthyOuter outer → tryPollOuter outer now =
      (rebuild outer (pollId (inner outer) now).1, .ok (pollId (inner outer) now).2))
    (fails : ∀ outer now, ¬ HealthyOuter outer →
      ∃ error, tryPollOuter outer now = (outer, .error error)) :
    ComparesTicks tryPollOuter (fun outer => timestamp (inner outer))
      (fun outer => Full (inner outer)) HealthyOuter where
  width_pos := compares.width_pos
  behind := by
    intro outer now healthy earlier
    obtain ⟨kept, asked⟩ := Prod.mk.inj (compares.behind (inner outer) now trivial earlier)
    rw [polls outer now healthy, kept, same, Except.ok.inj asked]
  exhausted := by
    intro outer healthy full
    obtain ⟨kept, asked⟩ := Prod.mk.inj (compares.exhausted (inner outer) trivial full)
    rw [polls outer _ healthy, kept, same, Except.ok.inj asked]
  ready := by
    intro outer now healthy answered
    obtain ⟨next, id, ready⟩ := compares.ready (inner outer) now trivial answered
    obtain ⟨-, asked⟩ := Prod.mk.inj ready
    rw [polls outer now healthy, Except.ok.inj asked]
    exact ⟨_, id, rfl⟩
  fails := fails

/-! ## Chains of waits -/

/-- One wait of a call: the generator stays as it is. -/
theorem of_waits_cons (compares : ComparesTicks tryPollId timestamp Full Healthy)
    {currentMillis : TimeSource World (BitVec width)}
    {wait : BitVec width → Generator × World → Generator × World} {generator : Generator}
    {world : World} {yieldFor : BitVec width} {rest : List (BitVec width)}
    {final : Generator × World}
    (waits : Waits (tryPollNow tryPollId currentMillis) wait (generator, world)
      (yieldFor :: rest) final) :
    Asks (timestamp generator).toNat (Full generator) (currentMillis world).1.toNat
        yieldFor.toNat ∧
      tryPollNow tryPollId currentMillis (generator, world) =
        ((generator, (currentMillis world).2), .inr yieldFor) ∧
      Waits (tryPollNow tryPollId currentMillis) wait
        (wait yieldFor (generator, (currentMillis world).2)) rest final := by
  cases waits with
  | next asked continued =>
      have turn := asked
      simp only [tryPollNow] at asked
      split at asked
      · cases asked
      · next after pending =>
          cases asked
          obtain ⟨rfl, -, asks⟩ := compares.of_pending pending
          exact ⟨asks, turn, continued⟩
      · cases asked

/-- A call with more than two waits: each of the first three is asked for at the
reading of its own world, and satisfies what every wait of the call satisfies. -/
theorem of_three_waits (compares : ComparesTicks tryPollId timestamp Full Healthy)
    {currentMillis : TimeSource World (BitVec width)} {f : BitVec width → World → World}
    {Holds : Generator × World → BitVec width → Generator × World → Prop}
    {generator : Generator} {world : World} {requests : List (BitVec width)}
    {final : Generator × World}
    (every : EveryWait (tryPollNow tryPollId currentMillis) (callBack f) Holds
      (generator, world))
    (waits : Waits (tryPollNow tryPollId currentMillis) (callBack f) (generator, world)
      requests final) (long : 2 < requests.length) :
    let asks world (yieldFor : BitVec width) := Asks (timestamp generator).toNat
      (Full generator) (currentMillis world).1.toNat yieldFor.toNat
    ∃ first second third world₁ world₂ world₃,
      (asks world first ∧ Holds (generator, world) first (generator, world₁)) ∧
      (asks world₁ second ∧ Holds (generator, world₁) second (generator, world₂)) ∧
      (asks world₂ third ∧ Holds (generator, world₂) third (generator, world₃)) := by
  match requests, waits, long with
  | first :: second :: third :: rest, waits, _ =>
      obtain ⟨firstAsks, firstTurn, afterFirst⟩ := compares.of_waits_cons waits
      obtain ⟨secondAsks, secondTurn, afterSecond⟩ := compares.of_waits_cons afterFirst
      obtain ⟨thirdAsks, thirdTurn, -⟩ := compares.of_waits_cons afterSecond
      have afterOne := every.tail firstTurn
      have afterTwo := afterOne.tail secondTurn
      exact ⟨first, second, third, _, _, _, ⟨firstAsks, every.head firstTurn⟩,
        ⟨secondAsks, afterOne.head secondTurn⟩, ⟨thirdAsks, afterTwo.head thirdTurn⟩⟩

/-- No call of which each callback advances the clock waits three times. -/
theorem waits_le_two (compares : ComparesTicks tryPollId timestamp Full Healthy)
    {currentMillis : TimeSource World (BitVec width)} {f : BitVec width → World → World}
    {generator : Generator} {world : World}
    (advance : CallbacksAdvance tryPollId currentMillis f generator world)
    {requests : List (BitVec width)} {final : Generator × World}
    (waits : Waits (tryPollNow tryPollId currentMillis) (callBack f) (generator, world)
      requests final) : requests.length ≤ 2 := by
  by_contra long
  obtain ⟨first, second, third, _, _, _, ⟨firstAsks, firstAdvance⟩,
    ⟨secondAsks, secondAdvance⟩, thirdAsks, -⟩ :=
    compares.of_three_waits advance waits (Nat.lt_of_not_le long)
  exact firstAsks.not_thrice firstAdvance secondAsks secondAdvance thirdAsks

/-! ## The end of a call -/

theorem generator_of_waits (compares : ComparesTicks tryPollId timestamp Full Healthy)
    {currentMillis : TimeSource World (BitVec width)} {f : BitVec width → World → World}
    {generator : Generator} {world : World} {requests : List (BitVec width)}
    {final : Generator × World}
    (waits : Waits (tryPollNow tryPollId currentMillis) (callBack f) (generator, world)
      requests final) : final.1 = generator := by
  induction requests generalizing world with
  | nil =>
      cases waits
      rfl
  | cons yieldFor rest inductionHypothesis =>
      obtain ⟨-, -, continued⟩ := compares.of_waits_cons waits
      exact inductionHypothesis continued

/-- A healthy generator ends a call with an ID, not with an error. -/
theorem ok_of_healthy (compares : ComparesTicks tryPollId timestamp Full Healthy)
    {currentMillis : TimeSource World (BitVec width)} {state after : Generator × World}
    {result : Except Err ID} (healthy : Healthy state.1)
    (ended : tryPollNow tryPollId currentMillis state = (after, .inl result)) :
    ∃ id, result = .ok id := by
  simp only [tryPollNow] at ended
  split at ended
  · next next id _ =>
      cases ended
      exact ⟨id, rfl⟩
  · cases ended
  · next next error failed =>
      rcases compares.outcome healthy (currentMillis state.2).1 with
        ⟨other, id, ready⟩ | ⟨yieldFor, pending, _⟩
      · rw [ready] at failed
        cases failed
      · rw [pending] at failed
        cases failed

/-- A bound of two on the waits of a call makes it end within three polls. -/
theorem tryNextId_finishes (compares : ComparesTicks tryPollId timestamp Full Healthy)
    {currentMillis : TimeSource World (BitVec width)} {f : BitVec width → World → World}
    {generator : Generator} {world : World}
    (bounded : ∀ requests final, Waits (tryPollNow tryPollId currentMillis) (callBack f)
      (generator, world) requests final → requests.length ≤ 2)
    {fuel : Nat} (enough : 3 ≤ fuel) :
    ∃ finished, tryNextId tryPollId currentMillis f fuel generator world = some finished ∧
      finished.waited.length ≤ 2 ∧ (Healthy generator → ∃ id, finished.result = .ok id) := by
  obtain ⟨finished, last, done, short, waits, ended⟩ := retry_finishes bounded enough
  refine ⟨finished, done, short, fun healthy => ?_⟩
  apply compares.ok_of_healthy _ ended
  rw [compares.generator_of_waits waits]
  exact healthy

end ComparesTicks

end Spec

end Ferroid.Generator
