import Ferroid.Library.CoherentCell
import Ferroid.Library.Transition
import Ferroid.Time.MonotonicClock

/-!
Contract: the background thread behind every `MonotonicClock`.

Owns the loop of `GLOBAL_TICKER` step by step, with time passing between any two steps,
and the values it stores: they increase, and none is ahead of the time that has really
passed.

A sleep lasts at least as long as asked for and may last longer. Elapsed time is in
nanoseconds since the thread's `start`; results are for the first `2 ^ 64 - 1`
milliseconds.
-/

namespace Ferroid.Time

open Ferroid.Library

/-- Nanoseconds in a millisecond. -/
def nanosPerMilli : Nat := 1000000

/-- Where the loop stands: before it computes its target, asleep until the target, before
it reads the elapsed time, or before it stores it. -/
inductive TickerPoint where
  | computing
  | sleeping (target : Nat)
  | measuring
  | storing (nowMs : BitVec 64)
deriving DecidableEq, Repr

/-- The ticker thread with its atomic, which `Thread`s read. -/
structure Ticker (Thread : Type) where
  elapsed : Nat
  tick : BitVec 64
  point : TickerPoint
  current : CoherentCell (BitVec 64) Thread

namespace Ticker

variable {Thread : Type}

/-- The thread has been spawned. -/
def start : Ticker Thread := ⟨0, 0#64, .computing, .new 0#64⟩

/-- One step of the loop; `none` while it sleeps. -/
def advance (self : Ticker Thread) : Option (Ticker Thread) :=
  match self.point with
  | .computing =>
      let target := self.tick.toNat * nanosPerMilli
      let now := self.elapsed
      if now < target then
        some { self with point := .sleeping (now + (target - now)) }
      else
        some { self with point := .measuring }
  | .sleeping target =>
      if target ≤ self.elapsed then
        some { self with point := .measuring }
      else
        none
  | .measuring =>
      some { self with point := .storing (BitVec.ofNat 64 (self.elapsed / nanosPerMilli)) }
  | .storing nowMs =>
      some { self with
        current := self.current.store nowMs
        tick := nowMs + 1#64
        point := .computing }

/-- Time passes. -/
def pass (self : Ticker Thread) (nanos : Nat) : Ticker Thread :=
  { self with elapsed := self.elapsed + nanos }

/-! ## Invariant -/

/-- Before the end of the range of a millisecond count. -/
def InRange (self : Ticker Thread) : Prop := self.elapsed / nanosPerMilli < 2 ^ 64 - 1

/-- What the point says about the next value. -/
def PointOk (self : Ticker Thread) : Prop :=
  match self.point with
  | .computing => True
  | .sleeping target => target = self.tick.toNat * nanosPerMilli
  | .measuring => self.tick.toNat * nanosPerMilli ≤ self.elapsed
  | .storing nowMs => self.tick.toNat ≤ nowMs.toNat ∧
      nowMs.toNat * nanosPerMilli ≤ self.elapsed

/-- The loop has stored these values, and its next target is one after the last. -/
structure Stored (tick : BitVec 64) (stored : List (BitVec 64)) : Prop where
  increasing : stored.Pairwise (· < ·)
  next : stored = [] ∧ tick = 0#64 ∨
    ∃ earlier last, stored = earlier ++ [last] ∧ tick.toNat = last.toNat + 1

/-- The values are `0`, as initialised, and what the loop has stored. -/
structure Ok (ticker : Ticker Thread) : Prop where
  stores : ∃ stored, ticker.current.values = 0#64 :: stored ∧ Stored ticker.tick stored
  past : ∀ value ∈ ticker.current.values, value.toNat * nanosPerMilli ≤ ticker.elapsed
  pointOk : ticker.PointOk

section Stored

variable {tick : BitVec 64} {stored : List (BitVec 64)}

theorem Stored.lt (done : Stored tick stored) {value : BitVec 64} (member : value ∈ stored) :
    value.toNat < tick.toNat := by
  obtain ⟨increasing, ⟨rfl, _⟩ | ⟨earlier, last, rfl, isTick⟩⟩ := done
  · cases member
  · rw [isTick]
    rcases List.mem_append.mp member with before | isLast
    · have less := (List.pairwise_append.mp increasing).2.2 value before last (by simp)
      exact Nat.lt_succ_of_lt less
    · rw [List.mem_singleton.mp isLast]
      exact Nat.lt_succ_self _

/-- The loop stores a value that its target allows. -/
theorem Stored.store (done : Stored tick stored) {nowMs : BitVec 64}
    (later : tick.toNat ≤ nowMs.toNat) (bounded : nowMs.toNat < 2 ^ 64 - 1) :
    Stored (nowMs + 1#64) (stored ++ [nowMs]) := by
  constructor
  · rw [List.pairwise_append]
    refine ⟨done.increasing, List.pairwise_singleton _ _, fun value member last isLast => ?_⟩
    rw [List.mem_singleton.mp isLast]
    exact Nat.lt_of_lt_of_le (done.lt member) later
  · refine Or.inr ⟨stored, nowMs, rfl, ?_⟩
    rw [BitVec.toNat_add, BitVec.toNat_ofNat]
    exact Nat.mod_eq_of_lt (by omega)

end Stored

section Steps

variable {self next : Ticker Thread}

theorem ok_start : (start : Ticker Thread).Ok where
  stores := ⟨[], rfl, List.Pairwise.nil, Or.inl ⟨rfl, rfl⟩⟩
  past := by simp [start, CoherentCell.new]
  pointOk := trivial

theorem Ok.pass (ok : self.Ok) (nanos : Nat) : (self.pass nanos).Ok where
  stores := ok.stores
  past value member := Nat.le_trans (ok.past value member) (Nat.le_add_right _ _)
  pointOk := by
    have pointOk := ok.pointOk
    unfold PointOk at pointOk ⊢
    cases at_point : self.point with
    | computing => simp [Ticker.pass, at_point]
    | sleeping target =>
        simp only [at_point] at pointOk
        simpa [Ticker.pass, at_point] using pointOk
    | measuring =>
        simp only [at_point] at pointOk
        simp only [Ticker.pass, at_point]
        omega
    | storing nowMs =>
        simp only [at_point] at pointOk
        simp only [Ticker.pass, at_point]
        omega

theorem elapsed_advance (stepped : self.advance = some next) : next.elapsed = self.elapsed := by
  unfold advance at stepped
  split at stepped
  · dsimp only at stepped
    split at stepped <;> cases stepped <;> rfl
  · split at stepped
    · cases stepped
      rfl
    · cases stepped
  · cases stepped
    rfl
  · cases stepped
    rfl

theorem Ok.advance (ok : self.Ok) (inRange : self.InRange) (stepped : self.advance = some next) :
    next.Ok := by
  obtain ⟨⟨stored, values, done⟩, past, pointOk⟩ := ok
  unfold Ticker.advance at stepped
  unfold PointOk at pointOk
  cases at_point : self.point with
  | computing =>
      simp only [at_point] at stepped
      split at stepped
      · next early =>
          cases stepped
          refine ⟨⟨stored, values, done⟩, past, ?_⟩
          show self.elapsed + (self.tick.toNat * nanosPerMilli - self.elapsed) =
            self.tick.toNat * nanosPerMilli
          omega
      · next late =>
          cases stepped
          exact ⟨⟨stored, values, done⟩, past, Nat.le_of_not_lt late⟩
  | sleeping target =>
      simp only [at_point] at stepped pointOk
      split at stepped
      · next awake =>
          cases stepped
          refine ⟨⟨stored, values, done⟩, past, ?_⟩
          show self.tick.toNat * nanosPerMilli ≤ self.elapsed
          omega
      · cases stepped
  | measuring =>
      simp only [at_point] at stepped pointOk
      cases stepped
      refine ⟨⟨stored, values, done⟩, past, ?_⟩
      have fits : self.elapsed / nanosPerMilli < 2 ^ 64 := by
        unfold InRange at inRange
        omega
      show self.tick.toNat ≤ (BitVec.ofNat 64 (self.elapsed / nanosPerMilli)).toNat ∧
        (BitVec.ofNat 64 (self.elapsed / nanosPerMilli)).toNat * nanosPerMilli ≤ self.elapsed
      rw [BitVec.toNat_ofNat, Nat.mod_eq_of_lt fits]
      exact ⟨(Nat.le_div_iff_mul_le (by decide)).mpr pointOk, Nat.div_mul_le_self _ _⟩
  | storing nowMs =>
      simp only [at_point] at stepped pointOk
      cases stepped
      obtain ⟨later, real⟩ := pointOk
      have bounded : nowMs.toNat < 2 ^ 64 - 1 := by
        unfold InRange at inRange
        have quotient := (Nat.le_div_iff_mul_le (by decide)).mpr real
        omega
      refine ⟨⟨stored ++ [nowMs], ?_, done.store later bounded⟩, ?_, trivial⟩
      · simp [CoherentCell.store, values]
      · show ∀ value ∈ self.current.values ++ [nowMs], _
        rw [List.forall_mem_append, List.forall_mem_singleton]
        exact ⟨past, real⟩

/-- The stored values only grow. -/
theorem Ok.sorted (ok : self.Ok) : self.current.values.Pairwise (· ≤ ·) := by
  obtain ⟨stored, values, done⟩ := ok.stores
  rw [values, List.pairwise_cons]
  exact ⟨fun value _ => Nat.zero_le value.toNat, done.increasing.imp BitVec.le_of_lt⟩

/-- A value that is about to be stored is not below any other. -/
theorem Ok.le_storing (ok : self.Ok) {nowMs : BitVec 64} (at_point : self.point = .storing nowMs)
    {value : BitVec 64} (member : value ∈ self.current.values) : value ≤ nowMs := by
  obtain ⟨stored, values, done⟩ := ok.stores
  have pointOk := ok.pointOk
  simp only [PointOk, at_point] at pointOk
  rw [values] at member
  rcases List.mem_cons.mp member with rfl | earlier
  · exact Nat.zero_le nowMs.toNat
  · exact Nat.le_trans (Nat.le_of_lt (done.lt earlier)) pointOk.1

/-- While the ticker sleeps and is not late, its newest value is the elapsed time. -/
theorem Ok.newest (ok : self.Ok) {target : Nat} (at_point : self.point = .sleeping target)
    (early : self.elapsed < target) :
    ∃ earlier newest, self.current.values = earlier ++ [newest] ∧
      newest.toNat = self.elapsed / nanosPerMilli := by
  obtain ⟨stored, values, done⟩ := ok.stores
  have pointOk := ok.pointOk
  simp only [PointOk, at_point] at pointOk
  rw [pointOk] at early
  rcases done.next with ⟨_, isZero⟩ | ⟨earlier, last, rfl, isTick⟩
  · rw [isZero, BitVec.toNat_zero, Nat.zero_mul] at early
    exact absurd early (Nat.not_lt_zero _)
  · refine ⟨0#64 :: earlier, last, values, ?_⟩
    have real := ok.past last (by simp [values])
    rw [isTick] at early
    exact (Nat.div_eq_of_lt_le real early).symm

end Steps

end Ticker

/-! ## Threads that read the clock -/

/-- What happens next: time passes, the ticker moves, or a thread loads the value at some
position and does something with it. -/
inductive Event (Thread Input : Type) where
  | pass (nanos : Nat)
  | advance
  | use (thread : Thread) (position : Nat) (input : Input)
deriving DecidableEq, Repr

/-- The ticker and what every thread keeps for itself. -/
structure Process (Thread Local : Type) where
  ticker : Ticker Thread
  locals : Thread → Local

namespace Process

variable {Thread Local Input : Type}

def start (fresh : Thread → Local) : Process Thread Local := ⟨.start, fresh⟩

/-- One event; `react` is what a thread does with the value it has loaded. -/
def step [DecidableEq Thread] (react : Thread → Local → BitVec 64 → Input → Local)
    (self : Process Thread Local) : Event Thread Input → Option (Process Thread Local)
  | .pass nanos => some { self with ticker := self.ticker.pass nanos }
  | .advance => self.ticker.advance.map fun ticker => { self with ticker := ticker }
  | .use thread position input =>
      (self.ticker.current.load thread position).map fun loaded =>
        ⟨{ self.ticker with current := loaded.2 },
          Function.update self.locals thread
            (react thread (self.locals thread) loaded.1 input)⟩

/-! ## Reading in order -/

section Threads

variable {self : Process Thread Local} {Holds : Thread → Local → BitVec 64 → Prop}

/-- A thread has last loaded `seen`, and can load nothing older. -/
def Sees (Holds : Thread → Local → BitVec 64 → Prop) (self : Process Thread Local)
    (thread : Thread) : Prop :=
  ∃ seen, self.ticker.current.AtLeast thread seen ∧ seen ∈ self.ticker.current.values ∧
    Holds thread (self.locals thread) seen

/-- The ticker works, and `Holds` of every thread. -/
structure Ok (Holds : Thread → Local → BitVec 64 → Prop) (process : Process Thread Local) :
    Prop where
  ticker : process.ticker.Ok
  sees : ∀ thread, Sees Holds process thread

theorem ok_start {fresh : Thread → Local}
    (initially : ∀ thread, Holds thread (fresh thread) 0#64) : (start fresh).Ok Holds where
  ticker := Ticker.ok_start
  sees thread := by
    refine ⟨0#64, fun position value _ _ => Nat.zero_le value.toNat, ?_, initially thread⟩
    simp [start, Ticker.start, CoherentCell.new]

/-- A step of the ticker keeps what threads have seen. -/
theorem Sees.advance (ok : self.ticker.Ok) {thread : Thread} (sees : Sees Holds self thread)
    {ticker : Ticker Thread} (advanced : self.ticker.advance = some ticker) :
    Sees Holds { self with ticker := ticker } thread := by
  obtain ⟨seen, atLeast, member, holds⟩ := sees
  unfold Ticker.advance at advanced
  split at advanced
  · dsimp only at advanced
    split at advanced <;> cases advanced <;> exact ⟨seen, atLeast, member, holds⟩
  · split at advanced
    · cases advanced
      exact ⟨seen, atLeast, member, holds⟩
    · cases advanced
  · cases advanced
    exact ⟨seen, atLeast, member, holds⟩
  · next nowMs at_point =>
      cases advanced
      exact ⟨seen, atLeast.store (ok.le_storing at_point member),
        List.mem_append_left _ member, holds⟩

end Threads

section Run

variable [DecidableEq Thread] {react : Thread → Local → BitVec 64 → Input → Local}
  {self next : Process Thread Local} {Holds : Thread → Local → BitVec 64 → Prop}

/-- Time never goes back. -/
theorem elapsed_le {event : Event Thread Input} (stepped : self.step react event = some next) :
    self.ticker.elapsed ≤ next.ticker.elapsed := by
  cases event with
  | pass nanos =>
      cases stepped
      exact Nat.le_add_right _ _
  | advance =>
      obtain ⟨ticker, advanced, rfl⟩ := Option.map_eq_some_iff.mp stepped
      exact Nat.le_of_eq (Ticker.elapsed_advance advanced).symm
  | use thread position input =>
      obtain ⟨loaded, _, rfl⟩ := Option.map_eq_some_iff.mp stepped
      exact Nat.le_refl _

theorem Ok.step
    (reacts : ∀ thread state seen value input, Holds thread state seen → seen ≤ value →
      Holds thread (react thread state value input) value)
    {event : Event Thread Input} (ok : self.Ok Holds) (inRange : self.ticker.InRange)
    (stepped : self.step react event = some next) : next.Ok Holds := by
  cases event with
  | pass nanos =>
      cases stepped
      exact ⟨ok.ticker.pass nanos, ok.sees⟩
  | advance =>
      obtain ⟨ticker, advanced, rfl⟩ := Option.map_eq_some_iff.mp stepped
      exact ⟨ok.ticker.advance inRange advanced,
        fun thread => (ok.sees thread).advance ok.ticker advanced⟩
  | use thread position input =>
      obtain ⟨⟨value, cell⟩, loaded, rfl⟩ := Option.map_eq_some_iff.mp stepped
      obtain ⟨inView, found, isCell⟩ := CoherentCell.load_eq_some.mp loaded
      have values : cell.values = self.ticker.current.values := by rw [isCell]
      refine ⟨⟨?_, ?_, ok.ticker.pointOk⟩, fun other => ?_⟩
      · show ∃ stored, cell.values = _ ∧ _
        rw [values]
        exact ok.ticker.stores
      · show ∀ value ∈ cell.values, _
        rw [values]
        exact ok.ticker.past
      · by_cases same : other = thread
        · subst same
          obtain ⟨seen, atLeast, _, holds⟩ := ok.sees other
          refine ⟨value, CoherentCell.atLeast_of_load ok.ticker.sorted loaded, ?_, ?_⟩
          · show value ∈ cell.values
            rw [values]
            exact List.mem_of_getElem? found
          · simp only [Function.update_self]
            exact reacts other _ seen value input holds (atLeast position value inView found)
        · obtain ⟨seen, atLeast, member, holds⟩ := ok.sees other
          refine ⟨seen, atLeast.load loaded, ?_, ?_⟩
          · show seen ∈ cell.values
            rwa [values]
          · simpa only [Function.update_of_ne same] using holds

/-- What holds of a thread that loads values in order holds of every thread in every run,
for as long as the millisecond count is in range. -/
theorem Ok.run {fresh : Thread → Local} (initially : ∀ thread, Holds thread (fresh thread) 0#64)
    (reacts : ∀ thread state seen value input, Holds thread state seen → seen ≤ value →
      Holds thread (react thread state value input) value)
    {events : List (Event Thread Input)} {final : Process Thread Local}
    (ran : Transition.run (Process.step react) (start fresh) events = some final)
    (inRange : final.ticker.InRange) : final.Ok Holds := by
  refine Transition.run_invariant_always
    (fun process => process.ticker.InRange → process.Ok Holds) ?_ ?_ ran inRange
  · intro process event after ok stepped later
    have earlier : process.ticker.InRange :=
      Nat.lt_of_le_of_lt (Nat.div_le_div_right (elapsed_le stepped)) later
    exact (ok earlier).step reacts earlier stepped
  · intro _
    exact ok_start initially

end Run

end Process

/-! ## Clocks -/

/-- A thread keeps what it has loaded. -/
def keepLoad {Thread : Type} (_ : Thread) (loads : List (BitVec 64)) (value : BitVec 64)
    (_ : Unit) : List (BitVec 64) := loads ++ [value]

/-- The loads of a thread never went back, up to the last one. -/
structure LoadsInOrder {Thread : Type} (thread : Thread) (loads : List (BitVec 64))
    (seen : BitVec 64) : Prop where
  ordered : loads.Pairwise (· ≤ ·)
  upTo : ∀ value ∈ loads, value ≤ seen

theorem LoadsInOrder.keepLoad {Thread : Type} {thread : Thread} {loads : List (BitVec 64)}
    {seen value : BitVec 64} (inOrder : LoadsInOrder thread loads seen) (order : seen ≤ value) :
    LoadsInOrder thread (keepLoad thread loads value ()) value := by
  have upTo : ∀ old ∈ loads, old ≤ value := fun old member =>
    BitVec.le_trans (inOrder.upTo old member) order
  constructor
  · show (loads ++ [value]).Pairwise _
    rw [List.pairwise_append]
    refine ⟨inOrder.ordered, List.pairwise_singleton _ _, fun old member last isLast => ?_⟩
    rw [List.mem_singleton.mp isLast]
    exact upTo old member
  · show ∀ old ∈ loads ++ [value], _
    rw [List.forall_mem_append, List.forall_mem_singleton]
    exact ⟨upTo, BitVec.le_refl value⟩

namespace MonotonicClock

variable {N : BitVec 64}

theorem toNat_currentMillis_of_fits (self : MonotonicClock N) {width : Nat} (wide : 64 ≤ width)
    {current : BitVec 64} (fits : self.epochOffset.toNat + current.toNat < 2 ^ 64) :
    (self.currentMillis width current).toNat =
      (self.epochOffset.toNat + current.toNat) / N.toNat := by
  rw [toNat_currentMillis self wide, Nat.mod_eq_of_lt fits]

/-- Later ticker values give later readings. -/
theorem currentMillis_mono (self : MonotonicClock N) {width : Nat} (wide : 64 ≤ width)
    {earlier later : BitVec 64} (order : earlier ≤ later)
    (fits : self.epochOffset.toNat + later.toNat < 2 ^ 64) :
    self.currentMillis width earlier ≤ self.currentMillis width later := by
  have before : earlier.toNat ≤ later.toNat := order
  show (self.currentMillis width earlier).toNat ≤ (self.currentMillis width later).toNat
  rw [self.toNat_currentMillis_of_fits wide fits,
    self.toNat_currentMillis_of_fits wide (by omega)]
  exact Nat.div_le_div_right (by omega)

end MonotonicClock

/-- Any number of threads read the ticker while it runs. The values it stores increase; it is
exact while it sleeps and is not late, and never ahead of the time that has passed. Every
clock shows each thread non-decreasing readings, and a clock of granularity `N` reads
between the milliseconds shown before and after it, in units of `N`. -/
theorem clocks_never_go_back {Thread : Type} [DecidableEq Thread]
    (events : List (Event Thread Unit)) (final : Process Thread (List (BitVec 64)))
    (ran : Transition.run (Process.step keepLoad) (.start fun _ => []) events = some final)
    (inRange : final.ticker.InRange) :
    (∃ stored, final.ticker.current.values = 0#64 :: stored ∧ stored.Pairwise (· < ·)) ∧
      (∀ target, final.ticker.point = .sleeping target → final.ticker.elapsed < target →
        ∃ earlier newest, final.ticker.current.values = earlier ++ [newest] ∧
          newest.toNat = final.ticker.elapsed / nanosPerMilli) ∧
      ∀ thread,
        (∀ value ∈ final.locals thread, value.toNat ≤ final.ticker.elapsed / nanosPerMilli) ∧
        ∀ (N : BitVec 64) (clock : MonotonicClock N) (width : Nat), 64 ≤ width →
          clock.epochOffset.toNat + final.ticker.elapsed / nanosPerMilli < 2 ^ 64 →
          ((final.locals thread).map (clock.currentMillis width)).Pairwise (· ≤ ·) ∧
          ∀ (millis : MonotonicClock 1#64), millis.epochOffset = clock.epochOffset →
            ∀ first second third, [first, second, third].Sublist (final.locals thread) →
              (millis.currentMillis width first).toNat / N.toNat ≤
                (clock.currentMillis width second).toNat ∧
              (clock.currentMillis width second).toNat ≤
                (millis.currentMillis width third).toNat / N.toNat := by
  have ok : final.Ok LoadsInOrder := by
    refine Process.Ok.run (fun _ => ⟨List.Pairwise.nil, by simp⟩) ?_ ran inRange
    intro thread loads seen value _ inOrder order
    exact inOrder.keepLoad order
  refine ⟨?_, fun target at_point early => ok.ticker.newest at_point early, fun thread => ?_⟩
  · obtain ⟨stored, values, done⟩ := ok.ticker.stores
    exact ⟨stored, values, done.increasing⟩
  obtain ⟨seen, _, member, inOrder⟩ := ok.sees thread
  have real : ∀ value ∈ final.locals thread,
      value.toNat ≤ final.ticker.elapsed / nanosPerMilli := by
    intro value loaded
    have upTo : value.toNat ≤ seen.toNat := inOrder.upTo value loaded
    have past := (Nat.le_div_iff_mul_le (by decide)).mpr (ok.ticker.past seen member)
    exact Nat.le_trans upTo past
  refine ⟨real, fun N clock width wide fits => ⟨?_, ?_⟩⟩
  · rw [List.pairwise_map]
    apply inOrder.ordered.imp_of_mem
    intro earlier later _ loaded order
    have bound := real later loaded
    exact clock.currentMillis_mono wide order (by omega)
  · intro millis same first second third sublist
    have loaded : ∀ value ∈ [first, second, third], clock.epochOffset.toNat + value.toNat <
        2 ^ 64 := by
      intro value isLoad
      have bound := real value (sublist.subset isLoad)
      omega
    have ordered := inOrder.ordered.sublist sublist
    simp only [List.pairwise_cons, List.mem_cons, forall_eq_or_imp] at ordered
    have firstSecond : first.toNat ≤ second.toNat := ordered.1.1
    have secondThird : second.toNat ≤ third.toNat := ordered.2.1.1
    rw [millis.toNat_currentMillis_of_fits wide (by rw [same]; exact loaded first (by simp)),
      millis.toNat_currentMillis_of_fits wide (by rw [same]; exact loaded third (by simp)),
      clock.toNat_currentMillis_of_fits wide (loaded second (by simp)), same]
    have one : (1#64).toNat = 1 := rfl
    rw [one, Nat.div_one, Nat.div_one]
    exact ⟨Nat.div_le_div_right (by omega), Nat.div_le_div_right (by omega)⟩

/-- The ticker stores 0 and, two and a half milliseconds later, 2; one thread reads a stale 0
and then the new value. -/
def tickingRun : List (Event Bool Unit) :=
  [.advance, .advance, .advance, .advance, .pass 2500000, .use true 1 (), .advance, .advance,
    .advance, .advance, .use false 0 (), .use true 2 (), .use true 2 ()]

theorem clocks_never_go_back_ticking :
    ∃ final : Process Bool (List (BitVec 64)),
      Transition.run (Process.step keepLoad) (.start fun _ => []) tickingRun = some final ∧
        final.locals true = [0#64, 2#64, 2#64] ∧ final.locals false = [0#64] ∧
        ∀ value ∈ final.locals true, value.toNat ≤ 2 := by
  have observed : (Transition.run (Process.step keepLoad) (.start fun _ => []) tickingRun).map
      (fun final : Process Bool (List (BitVec 64)) =>
        (final.locals true, final.locals false, final.ticker.elapsed)) =
        some ([0#64, 2#64, 2#64], [0#64], 2500000) := by
    decide +kernel
  obtain ⟨final, ran, seen⟩ := Option.map_eq_some_iff.mp observed
  simp only [Prod.mk.injEq] at seen
  obtain ⟨loads, other, elapsed⟩ := seen
  have inRange : final.ticker.InRange := by
    rw [Ticker.InRange, elapsed]
    decide
  have never := (clocks_never_go_back tickingRun final ran inRange).2.2 true
  rw [elapsed] at never
  exact ⟨final, ran, loads, other, never.1⟩

end Ferroid.Time
