import Ferroid.Generator.Blocking
import Ferroid.Library.Poisoning

/-!
Contract: what the callers of a shared lock generator get, one turn after the other.

Owns the calls of a lock generator by any number of threads as calls of one, in the order
in which they hold the lock: their answers are those of `try_poll_id` in that order, as long
as the lock is sound they are the polls of the basic generator, and a panic under a mutex
that records it refuses everybody from then on and changes nothing.

Does not own the interleaving semantics (`Library.LockedCell`).
-/

namespace Ferroid.Generator

open Ferroid.Id
open Ferroid.Library

variable {ID Ty Draw Err Generator Basic Thread : Type}

/-! ## One caller -/

/-- One caller takes all turns, one after the other, on a generator of its own. -/
def serveTurns (tryPollId : TryPoll ID Err Generator Ty) (panic : Generator → Generator) :
    Generator → List (LockedCell.Turn Thread Ty) →
      Generator × List (Thread × Except Err (Poll ID Ty))
  | generator, [] => (generator, [])
  | generator, .call thread now :: rest =>
      let (next, answer) := tryPollId generator now
      let (last, answers) := serveTurns tryPollId panic next rest
      (last, (thread, answer) :: answers)
  | generator, .panic :: rest => serveTurns tryPollId panic (panic generator) rest

/-- The answers of a schedule, as the callers get them. -/
def LockSystem.answers (system : LockSystem ID Ty Draw Thread) :
    List (Thread × Except Error (Poll ID Ty)) :=
  system.returns.map fun answer =>
    (answer.thread, answer.result.elim (.error .lockPoisoned) .ok)

section OneCaller

variable {tryPollId : TryPoll ID Err Generator Ty} {panic : Generator → Generator}

theorem serveTurns_append {generator middle last : Generator}
    {front back : List (LockedCell.Turn Thread Ty)}
    {first second : List (Thread × Except Err (Poll ID Ty))}
    (before : serveTurns tryPollId panic generator front = (middle, first))
    (after : serveTurns tryPollId panic middle back = (last, second)) :
    serveTurns tryPollId panic generator (front ++ back) = (last, first ++ second) := by
  induction front generalizing generator first with
  | nil =>
      cases before
      exact after
  | cons turn rest inductionHypothesis =>
      cases turn with
      | call thread now =>
          simp only [serveTurns, List.cons_append] at before ⊢
          cases before
          rw [inductionHypothesis rfl]
          rfl
      | panic => exact inductionHypothesis before

/-- A generator behind a mutex: a sound one is polled as the basic generator in it, and a
poisoned one stays poisoned. -/
structure Guards (tryPollId : TryPoll ID Err Generator Ty) (panic : Generator → Generator)
    (poisoned : Generator → Bool) (pollId : Basic → Ty → Basic × Poll ID Ty)
    (inner : Generator → Basic) : Prop where
  answers : ∀ generator now, poisoned generator = false →
    (tryPollId generator now).2 = .ok (pollId (inner generator) now).2
  advances : ∀ generator now, poisoned generator = false →
    inner (tryPollId generator now).1 = (pollId (inner generator) now).1
  stays : ∀ generator now, poisoned generator = true →
    poisoned (tryPollId generator now).1 = true
  panics : ∀ generator, inner (panic generator) = inner generator
  recorded : ∀ generator, poisoned generator = true → poisoned (panic generator) = true

variable {poisoned : Generator → Bool} {pollId : Basic → Ty → Basic × Poll ID Ty}
  {inner : Generator → Basic}

theorem Guards.poisoned_of (guards : Guards tryPollId panic poisoned pollId inner)
    {generator : Generator} (already : poisoned generator = true)
    (turns : List (LockedCell.Turn Thread Ty)) :
    poisoned (serveTurns tryPollId panic generator turns).1 = true := by
  induction turns generalizing generator with
  | nil => exact already
  | cons turn rest inductionHypothesis =>
      cases turn with
      | call thread now => exact inductionHypothesis (guards.stays generator now already)
      | panic => exact inductionHypothesis (guards.recorded generator already)

/-- While the lock is sound, the turns are polls of the basic generator. -/
theorem Guards.polls (guards : Guards tryPollId panic poisoned pollId inner)
    (generator : Generator) (turns : List (LockedCell.Turn Thread Ty))
    (sound : poisoned (serveTurns tryPollId panic generator turns).1 = false) :
    (serveTurns tryPollId panic generator turns).2.map Prod.snd =
      (pollAll pollId (inner generator) (turns.filterMap LockedCell.Turn.now?)).map
        fun polled => .ok polled.result := by
  have soundNow : poisoned generator = false := by
    by_contra already
    rw [guards.poisoned_of (Bool.eq_true_of_not_eq_false already)] at sound
    cases sound
  induction turns generalizing generator with
  | nil => rfl
  | cons turn rest inductionHypothesis =>
      cases turn with
      | call thread now =>
          have soundNext : poisoned (tryPollId generator now).1 = false := by
            by_contra already
            have never := guards.poisoned_of (Bool.eq_true_of_not_eq_false already) rest
            exact Bool.noConfusion (sound.symm.trans never)
          have later := inductionHypothesis _ sound soundNext
          rw [guards.advances generator now soundNow] at later
          simp only [serveTurns, List.map_cons, List.filterMap_cons, LockedCell.Turn.now?, pollAll]
          rw [later, guards.answers generator now soundNow]
      | panic =>
          have soundNext : poisoned (panic generator) = false := by
            by_contra already
            have never := guards.poisoned_of (Bool.eq_true_of_not_eq_false already) rest
            exact Bool.noConfusion (sound.symm.trans never)
          have later := inductionHypothesis _ sound soundNext
          rw [guards.panics] at later
          exact later

end OneCaller

/-! ## Many callers -/

/-- A shared generator as a generator of one caller; `Fed` says that the random source of the
one caller yields what the updates drew. -/
structure TakesTurns (poisons : Bool)
    (critical : ID → Ty → Draw → LockedCell.Outcome ID Draw (Poll ID Ty))
    (tryPollId : TryPoll ID Error Generator Ty) (panic : Generator → Generator)
    (view : ID → List (Replay.Update ID Ty Draw Thread) → Bool → Generator)
    (Fed : List (Replay.Update ID Ty Draw Thread) → Prop) : Prop where
  refuses : ∀ cell updates now,
    tryPollId (view cell updates true) now = (view cell updates true, .error .lockPoisoned)
  serves : ∀ cell updates thread now value,
    Fed (LockedCell.logged updates thread now (critical cell now value)) →
      tryPollId (view cell updates false) now =
        (view (critical cell now value).state
          (LockedCell.logged updates thread now (critical cell now value)) false,
          .ok (critical cell now value).result)
  panics : ∀ cell updates, panic (view cell updates false) = view cell updates poisons
  fed : ∀ updates more, Fed (updates ++ more) → Fed updates

section ManyCallers

variable [DecidableEq Thread] {poisons : Bool}
  {critical : ID → Ty → Draw → LockedCell.Outcome ID Draw (Poll ID Ty)}
  {tryPollId : TryPoll ID Error Generator Ty} {panic : Generator → Generator}
  {view : ID → List (Replay.Update ID Ty Draw Thread) → Bool → Generator}
  {Fed : List (Replay.Update ID Ty Draw Thread) → Prop}
  {system next : LockSystem ID Ty Draw Thread}

/-- One step of a schedule, as the one caller takes it. -/
theorem TakesTurns.step (takes : TakesTurns poisons critical tryPollId panic view Fed)
    {label : LockedCell.Label Thread Ty Draw}
    (stepped : LockedCell.step poisons critical system label = some next)
    (isFed : Fed next.updates) :
    Fed system.updates ∧ ∃ answers,
      LockSystem.answers next = LockSystem.answers system ++ answers ∧
      serveTurns tryPollId panic (view system.cell system.updates system.poisoned)
          (LockedCell.turns system label) =
        (view next.cell next.updates next.poisoned, answers) := by
  cases LockedCell.moves_of_step stepped with
  | readClock thread now => exact ⟨isFed, [], (List.append_nil _).symm, rfl⟩
  | refuse thread value now timed poisoned =>
      refine ⟨isFed, [(thread, .error .lockPoisoned)], List.map_append, ?_⟩
      simp only [LockedCell.turns, timed, poisoned, serveTurns, takes.refuses]
  | serve thread value now timed sound =>
      obtain ⟨more, grows⟩ := LockedCell.exists_logged_eq system.updates thread now
        (critical system.cell now value)
      refine ⟨takes.fed _ more (grows ▸ isFed),
        [(thread, .ok (critical system.cell now value).result)], List.map_append, ?_⟩
      simp only [LockedCell.turns, timed, sound, serveTurns]
      rw [takes.serves system.cell system.updates thread now value isFed]
  | panic thread now timed sound =>
      refine ⟨isFed, [], (List.append_nil _).symm, ?_⟩
      simp only [LockedCell.turns, sound, serveTurns, takes.panics]

/-- A whole schedule: the callers get what the one caller gets. -/
theorem TakesTurns.run (takes : TakesTurns poisons critical tryPollId panic view Fed)
    {origin : ID} {labels : List (LockedCell.Label Thread Ty Draw)}
    (ran : Transition.run (LockedCell.step poisons critical) (LockedCell.start origin) labels =
      some system) (isFed : Fed system.updates) :
    serveTurns tryPollId panic (view origin [] false)
        (LockedCell.allTurns poisons critical origin labels) =
      (view system.cell system.updates system.poisoned, LockSystem.answers system) := by
  let Inv (system : LockSystem ID Ty Draw Thread) (turns : List (LockedCell.Turn Thread Ty)) :=
    Fed system.updates → serveTurns tryPollId panic (view origin [] false) turns =
      (view system.cell system.updates system.poisoned, LockSystem.answers system)
  have start : Inv (LockedCell.start origin) [] := fun _ => rfl
  refine Transition.run_invariant_logged Inv ?_ start ran isFed
  intro before label after turns inductionHypothesis stepped isFed
  obtain ⟨wasFed, answers, returned, taken⟩ := takes.step stepped isFed
  rw [returned]
  exact serveTurns_append (inductionHypothesis wasFed) taken

/-- Two states of one run, and whether the lock is poisoned at the first: a sound lock has
refused nobody, and behind a poisoned one nothing changes and no ID is issued again. -/
structure PoisoningExact (poisoned : Bool) (before after : LockSystem ID Ty Draw Thread) :
    Prop where
  served : poisoned = false → ∀ answer ∈ before.returns, answer.result.isSome = true
  frozen : poisoned = true → after.cell = before.cell ∧ after.updates = before.updates ∧
    LockSystem.readyAnswers after = LockSystem.readyAnswers before
  refuses : poisoned = true → ∃ answers, after.returns = before.returns ++ answers ∧
    ∀ answer ∈ answers, answer.result = none

theorem poisoningExact_of_run {poisons : Bool}
    {critical : ID → Ty → Draw → LockedCell.Outcome ID Draw (Poll ID Ty)} {origin : ID}
    {front back : List (LockedCell.Label Thread Ty Draw)}
    {before after : LockSystem ID Ty Draw Thread}
    (ran : Transition.run (LockedCell.step poisons critical) (LockedCell.start origin) front =
      some before)
    (continued : Transition.run (LockedCell.step poisons critical) before back = some after) :
    PoisoningExact (poisons && front.any LockedCell.Label.isPanic) before after := by
  have poisoned := LockedCell.poisoned_of_run ran
  rw [show (LockedCell.start origin).poisoned = false from rfl, Bool.false_or] at poisoned
  rw [← poisoned]
  refine ⟨fun sound => ?_, fun isPoisoned => ?_, fun isPoisoned => ?_⟩
  · exact LockedCell.answered_of_run sound ran (by simp [LockedCell.start])
  · obtain ⟨sameCell, sameUpdates, answers, returns, errors⟩ :=
      LockedCell.frozen_of_run isPoisoned continued
    refine ⟨sameCell, sameUpdates, ?_⟩
    have nothingNew : (answers.filterMap fun answer =>
        (answer.result.bind Poll.ready?).map fun id => (answer.thread, id)) = [] := by
      rw [List.filterMap_eq_nil_iff]
      intro answer member
      rw [(errors answer member).2]
      rfl
    unfold LockSystem.readyAnswers
    rw [returns, List.filterMap_append, nothingNew, List.append_nil]
  · obtain ⟨_, _, answers, returns, errors⟩ := LockedCell.frozen_of_run isPoisoned continued
    exact ⟨answers, returns, fun answer member => (errors answer member).2⟩

end ManyCallers

/-! ## The lock generators -/

/-- A caller panics while it holds the lock. -/
def LockSnowflakeGenerator.panic {layout : SnowflakeLayout} (poisons : Bool)
    (self : LockSnowflakeGenerator layout) : LockSnowflakeGenerator layout :=
  { self with poisoned := self.poisoned || poisons }

def LockMonoUlidGenerator.panic {layout : UlidLayout} (poisons : Bool)
    (self : LockMonoUlidGenerator layout) : LockMonoUlidGenerator layout :=
  { self with poisoned := self.poisoned || poisons }

theorem LockSnowflakeGenerator.guards (layout : SnowflakeLayout) (poisons : Bool) :
    Guards tryPollId (panic poisons) (fun self : LockSnowflakeGenerator layout => self.poisoned)
      BasicSnowflakeGenerator.pollId (fun self => ⟨self.state⟩) where
  answers := by
    intro self now sound
    simp only [tryPollId, sound, Bool.false_eq_true, if_false,
      (critical_eq_pollId self.state now).2]
  advances := by
    intro self now sound
    simp only [tryPollId, sound, Bool.false_eq_true, if_false,
      (critical_eq_pollId self.state now).1]
  stays := by
    intro self now poisoned
    simp only [tryPollId, poisoned, if_true]
  panics _ := rfl
  recorded := by
    intro self poisoned
    simp only [panic, poisoned, Bool.true_or]

theorem LockMonoUlidGenerator.guards {layout : UlidLayout} (rng : Nat → layout.Ty)
    (poisons : Bool) :
    Guards (tryPollId rng) (panic poisons)
      (fun self : LockMonoUlidGenerator layout => self.poisoned)
      (BasicMonoUlidGenerator.pollId rng) (fun self => ⟨self.state, self.drawn⟩) where
  answers := by
    intro self now sound
    simp only [tryPollId, sound, Bool.false_eq_true, if_false, critical_eq_pollId]
  advances := by
    intro self now sound
    simp only [tryPollId, sound, Bool.false_eq_true, if_false, critical_eq_pollId]
  stays := by
    intro self now poisoned
    simp only [tryPollId, poisoned, if_true]
  panics _ := rfl
  recorded := by
    intro self poisoned
    simp only [panic, poisoned, Bool.true_or]

section Threads

variable {Thread : Type}

theorem LockSnowflakeGenerator.takesTurns (layout : SnowflakeLayout) (poisons : Bool) :
    TakesTurns poisons critical tryPollId (panic poisons)
      (fun cell (_ : List (Replay.Update (SnowflakeId layout) layout.Ty Unit Thread)) poisoned =>
        (⟨cell, poisoned⟩ : LockSnowflakeGenerator layout)) fun _ => True where
  refuses _ _ _ := rfl
  serves _ _ _ _ _ _ := rfl
  panics _ _ := rfl
  fed _ _ _ := trivial

/-- A random source that yields what the updates drew. -/
def Yields {layout : UlidLayout} (rng : Nat → layout.Ty)
    (updates : List (Replay.Update (UlidId layout) layout.Ty layout.Ty Thread)) : Prop :=
  ∀ index value, (updates.filterMap Replay.Update.drawn)[index]? = some value → rng index = value

theorem LockMonoUlidGenerator.takesTurns {layout : UlidLayout} (rng : Nat → layout.Ty)
    (poisons : Bool) :
    TakesTurns poisons critical (tryPollId rng) (panic poisons)
      (fun cell (updates : List (Replay.Update (UlidId layout) layout.Ty layout.Ty Thread))
          poisoned =>
        (⟨cell, (updates.filterMap Replay.Update.drawn).length, poisoned⟩ :
          LockMonoUlidGenerator layout)) (Yields rng) where
  refuses _ _ _ := rfl
  serves := by
    intro cell updates thread now value yields
    have here := implements layout cell now value
    have there := implements layout cell now (rng (updates.filterMap Replay.Update.drawn).length)
    simp only [tryPollId, Bool.false_eq_true, if_false]
    cases plan : (AtomicMonoUlidGenerator.protocol layout).plan cell now with
    | wait result =>
        simp only [plan] at here there
        rw [here, there]
        rfl
    | commit next =>
        simp only [plan] at here there
        rw [here, there]
        simp [LockedCell.logged]
    | draw next =>
        simp only [plan] at here there
        -- the number that this update drew is the next one of the source
        have drawn : rng (updates.filterMap Replay.Update.drawn).length = value := by
          apply yields
          simp [here, LockedCell.logged]
        rw [there, here, drawn]
        simp [LockedCell.logged]
  panics _ _ := rfl
  fed := by
    intro updates more yields index value found
    apply yields index value
    rw [List.filterMap_append, List.getElem?_append_left (List.getElem?_eq_some_iff.mp found).1,
      found]

/-- What the callers of a lock generator get: in the order in which they hold the lock, what
one caller gets from `try_poll_id`; from a sound lock, what a basic generator answers. -/
structure ServedInTurn {ID Ty Draw Generator Basic : Type}
    (tryPollId : TryPoll ID Error Generator Ty) (panic : Generator → Generator)
    (pollId : Basic → Ty → Basic × Poll ID Ty) (first last : Generator) (basic : Basic)
    (turns : List (LockedCell.Turn Thread Ty)) (system : LockSystem ID Ty Draw Thread) : Prop where
  served : serveTurns tryPollId panic first turns = (last, LockSystem.answers system)
  sound : system.poisoned = false →
    (LockSystem.answers system).map Prod.snd =
      (pollAll pollId basic (turns.filterMap LockedCell.Turn.now?)).map
        fun polled => .ok polled.result

/-- Any number of threads sharing one lock generator, over a mutex that records panics or
one that does not: their calls are served in turn. Until a panic under a recording mutex
every call is answered as the basic generator answers it; from then on every call is refused
and the generator never changes again. -/
theorem lock_poisoning_exact (Thread : Type) [DecidableEq Thread] (poisons : Bool) :
    (∀ (layout : SnowflakeLayout) (origin : SnowflakeId layout)
        (front back : List (LockedCell.Label Thread layout.Ty Unit))
        (before after : LockSnowflakeGenerator.System layout Thread),
      Transition.run (LockedCell.step poisons LockSnowflakeGenerator.critical)
          (LockedCell.start origin) front = some before →
      Transition.run (LockedCell.step poisons LockSnowflakeGenerator.critical) before back =
          some after →
        ServedInTurn LockSnowflakeGenerator.tryPollId (LockSnowflakeGenerator.panic poisons)
            BasicSnowflakeGenerator.pollId ⟨origin, false⟩ ⟨before.cell, before.poisoned⟩ ⟨origin⟩
            (LockedCell.allTurns poisons LockSnowflakeGenerator.critical origin front) before ∧
          PoisoningExact (poisons && front.any LockedCell.Label.isPanic) before after) ∧
      ∀ (layout : UlidLayout) (origin : UlidId layout)
        (front back : List (LockedCell.Label Thread layout.Ty layout.Ty))
        (before after : LockMonoUlidGenerator.System layout Thread),
      Transition.run (LockedCell.step poisons LockMonoUlidGenerator.critical)
          (LockedCell.start origin) front = some before →
      Transition.run (LockedCell.step poisons LockMonoUlidGenerator.critical) before back =
          some after →
        (∀ rng : Nat → layout.Ty, Yields rng before.updates →
          ServedInTurn (LockMonoUlidGenerator.tryPollId rng)
            (LockMonoUlidGenerator.panic poisons) (BasicMonoUlidGenerator.pollId rng)
            ⟨origin, 0, false⟩
            ⟨before.cell, (before.updates.filterMap Replay.Update.drawn).length,
              before.poisoned⟩ ⟨origin, 0⟩
            (LockedCell.allTurns poisons LockMonoUlidGenerator.critical origin front) before) ∧
          PoisoningExact (poisons && front.any LockedCell.Label.isPanic) before after := by
  constructor
  · intro layout origin front back before after ran continued
    have served := (LockSnowflakeGenerator.takesTurns layout poisons).run ran trivial
    refine ⟨⟨served, fun sound => ?_⟩, poisoningExact_of_run ran continued⟩
    have polls := (LockSnowflakeGenerator.guards layout poisons).polls ⟨origin, false⟩
      (LockedCell.allTurns poisons LockSnowflakeGenerator.critical origin front)
      (by rw [served]; exact sound)
    rwa [served] at polls
  · intro layout origin front back before after ran continued
    refine ⟨fun rng yields => ?_, poisoningExact_of_run ran continued⟩
    have served : serveTurns (LockMonoUlidGenerator.tryPollId rng)
        (LockMonoUlidGenerator.panic poisons) ⟨origin, 0, false⟩
        (LockedCell.allTurns poisons LockMonoUlidGenerator.critical origin front) = _ :=
      (LockMonoUlidGenerator.takesTurns rng poisons).run ran yields
    refine ⟨served, fun sound => ?_⟩
    have polls := (LockMonoUlidGenerator.guards rng poisons).polls ⟨origin, 0, false⟩
      (LockedCell.allTurns poisons LockMonoUlidGenerator.critical origin front)
      (by rw [served]; exact sound)
    rwa [served] at polls

/-- A thread gets an ID, another panics under the lock, and the first one is refused. -/
theorem lock_poisoning_exact_refused :
    let front : List (LockedCell.Label Bool SnowflakeTwitterId.Ty Unit) :=
      [.readClock false 5#_, .critical false (), .readClock true 5#_, .panic true]
    let back : List (LockedCell.Label Bool SnowflakeTwitterId.Ty Unit) :=
      [.readClock false 6#_, .critical false ()]
    ∃ before after : LockSnowflakeGenerator.System SnowflakeTwitterId Bool,
      Transition.run (LockedCell.step true LockSnowflakeGenerator.critical)
          (LockedCell.start (SnowflakeId.fromComponents 4#_ 3#_ 0#_)) front = some before ∧
      Transition.run (LockedCell.step true LockSnowflakeGenerator.critical) before back =
          some after ∧
      (LockSystem.answers before).length = 1 ∧
      serveTurns LockSnowflakeGenerator.tryPollId (LockSnowflakeGenerator.panic true)
          (.fromComponents 4#_ 3#_ 0#_)
          [.call false 5#(SnowflakeTwitterId.width), .panic] =
        (⟨before.cell, before.poisoned⟩, LockSystem.answers before) ∧
      after.returns.length = 2 ∧ after.cell = before.cell ∧
      after.readyAnswers = before.readyAnswers := by
  intro front back
  have observed : ((Transition.run (LockedCell.step true LockSnowflakeGenerator.critical)
      (LockedCell.start (SnowflakeId.fromComponents 4#_ 3#_ 0#_)) front).bind fun before =>
        (Transition.run (LockedCell.step true LockSnowflakeGenerator.critical) before back).map
          fun after : LockSnowflakeGenerator.System SnowflakeTwitterId Bool =>
            ((LockSystem.answers before).length, after.returns.length)) = some (1, 2) := by
    decide +kernel
  obtain ⟨before, ran, rest⟩ := Option.bind_eq_some_iff.mp observed
  obtain ⟨after, continued, answered⟩ := Option.map_eq_some_iff.mp rest
  simp only [Prod.mk.injEq] at answered
  obtain ⟨inTurn, exact⟩ := (lock_poisoning_exact Bool true).1 SnowflakeTwitterId _ front back
    before after ran continued
  obtain ⟨sameCell, _, sameReady⟩ := exact.frozen rfl
  have turns : LockedCell.allTurns true LockSnowflakeGenerator.critical
      (SnowflakeId.fromComponents 4#_ 3#_ 0#_) front =
        [.call false 5#(SnowflakeTwitterId.width), .panic] := by
    decide +kernel
  have served := inTurn.served
  rw [turns] at served
  exact ⟨before, after, ran, continued, answered.1, served, answered.2, sameCell, sameReady⟩

end Threads

end Ferroid.Generator
