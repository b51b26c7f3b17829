import Mathlib.Logic.Function.Basic
import Ferroid.Library.Replay
import Ferroid.Library.Transition

/-!
Contract: one cell behind a mutex, updated in critical sections.

Owns the interleaving semantics (a thread reads the clock, then runs one whole
critical section as a single step), lock poisoning, the ghost log of the updates
and of the answers, and the theorem that the log is a sequential replay of the
protocol that the critical section implements.

Assumes that a critical section is one step, and that a thread which panics
inside it does so before it assigns the cell.
-/

namespace Ferroid.Library.LockedCell

open Ferroid.Library.Replay

variable {State Clock Draw Result Thread : Type}

inductive Phase (Clock : Type) where
  | idle
  | timed (now : Clock)

/-- `critical` carries the value the random source would give; `panic` is a
thread that panics while it holds the lock. -/
inductive Label (Thread Clock Draw : Type) where
  | readClock (thread : Thread) (now : Clock)
  | critical (thread : Thread) (value : Draw)
  | panic (thread : Thread)

/-- One answer; `none` is the poisoned-lock error. -/
structure Return (State Result Thread : Type) where
  thread : Thread
  installed : Option State
  result : Option Result

/-- A critical section: the new state, the answer, the state it installed (if
any) and what it took from the random source. -/
structure Outcome (State Draw Result : Type) where
  state : State
  result : Result
  installed : Option State
  drawn : Option Draw

structure System (State Clock Draw Result Thread : Type) where
  cell : State
  poisoned : Bool
  phase : Thread → Phase Clock
  updates : List (Update State Clock Draw Thread)
  returns : List (Return State Result Thread)

def start (cell : State) : System State Clock Draw Result Thread :=
  ⟨cell, false, fun _ => .idle, [], []⟩

/-- The critical section computes what the protocol plans. -/
def Implements (protocol : Protocol State Clock Draw Result)
    (critical : State → Clock → Draw → Outcome State Draw Result) : Prop :=
  ∀ state now value,
    match protocol.plan state now with
    | .wait result => critical state now value = ⟨state, result, none, none⟩
    | .commit next => critical state now value = ⟨next, protocol.ready next, some next, none⟩
    | .draw next =>
        critical state now value =
          ⟨next value, protocol.ready (next value), some (next value), some value⟩

section Semantics

variable [DecidableEq Thread]

/-- Log the update of a critical section, if it made one. -/
def logged (updates : List (Update State Clock Draw Thread)) (thread : Thread) (now : Clock)
    (outcome : Outcome State Draw Result) : List (Update State Clock Draw Thread) :=
  match outcome.installed with
  | some next => updates ++ [⟨thread, now, outcome.drawn, updates.length, next⟩]
  | none => updates

/-- `poisons` is true for a mutex that records panics (`std`) and false for one
that does not (`parking_lot`). -/
def step (poisons : Bool) (critical : State → Clock → Draw → Outcome State Draw Result)
    (system : System State Clock Draw Result Thread) :
    Label Thread Clock Draw → Option (System State Clock Draw Result Thread)
  | .readClock thread now =>
      match system.phase thread with
      | .idle => some { system with phase := Function.update system.phase thread (.timed now) }
      | .timed _ => none
  | .critical thread value =>
      match system.phase thread with
      | .timed now =>
          if system.poisoned then
            some { system with
              phase := Function.update system.phase thread .idle
              returns := system.returns ++ [⟨thread, none, none⟩] }
          else
            let outcome := critical system.cell now value
            some { system with
              cell := outcome.state
              phase := Function.update system.phase thread .idle
              updates := logged system.updates thread now outcome
              returns := system.returns ++ [⟨thread, outcome.installed, some outcome.result⟩] }
      | .idle => none
  | .panic thread =>
      match system.phase thread with
      | .timed _ =>
          if system.poisoned then none
          else
            some { system with
              poisoned := poisons
              phase := Function.update system.phase thread .idle }
      | .idle => none

/-- Everything one step can do. -/
inductive Moves (poisons : Bool) (critical : State → Clock → Draw → Outcome State Draw Result)
    (system : System State Clock Draw Result Thread) :
    Label Thread Clock Draw → System State Clock Draw Result Thread → Prop where
  | readClock (thread : Thread) (now : Clock) (idle : system.phase thread = .idle) :
      Moves poisons critical system (.readClock thread now)
        { system with phase := Function.update system.phase thread (.timed now) }
  | refuse (thread : Thread) (value : Draw) (now : Clock)
      (timed : system.phase thread = .timed now) (poisoned : system.poisoned = true) :
      Moves poisons critical system (.critical thread value)
        { system with
          phase := Function.update system.phase thread .idle
          returns := system.returns ++ [⟨thread, none, none⟩] }
  | serve (thread : Thread) (value : Draw) (now : Clock)
      (timed : system.phase thread = .timed now) (sound : system.poisoned = false) :
      Moves poisons critical system (.critical thread value)
        { system with
          cell := (critical system.cell now value).state
          phase := Function.update system.phase thread .idle
          updates := logged system.updates thread now (critical system.cell now value)
          returns := system.returns ++
            [⟨thread, (critical system.cell now value).installed,
              some (critical system.cell now value).result⟩] }
  | panic (thread : Thread) (now : Clock) (timed : system.phase thread = .timed now)
      (sound : system.poisoned = false) :
      Moves poisons critical system (.panic thread)
        { system with
          poisoned := poisons
          phase := Function.update system.phase thread .idle }

theorem moves_of_step {poisons : Bool}
    {critical : State → Clock → Draw → Outcome State Draw Result}
    {system next : System State Clock Draw Result Thread} {label : Label Thread Clock Draw}
    (stepped : step poisons critical system label = some next) :
    Moves poisons critical system label next := by
  cases label with
  | readClock thread now =>
      simp only [step] at stepped
      split at stepped
      · next idle =>
          cases stepped
          exact .readClock thread now idle
      · cases stepped
  | critical thread value =>
      simp only [step] at stepped
      split at stepped
      · next now timed =>
          split at stepped
          · next poisoned =>
              cases stepped
              exact .refuse thread value now timed poisoned
          · next sound =>
              cases stepped
              exact .serve thread value now timed (Bool.eq_false_iff.mpr sound)
      · cases stepped
  | panic thread =>
      simp only [step] at stepped
      split at stepped
      · next now timed =>
          split at stepped
          · cases stepped
          · next sound =>
              cases stepped
              exact .panic thread now timed (Bool.eq_false_iff.mpr sound)
      · cases stepped

/-- A thread that reads the clock and then enters its critical section before any
other moves: a poisoned lock answers with the error and leaves the cell alone. -/
theorem run_alone {poisons : Bool} {critical : State → Clock → Draw → Outcome State Draw Result}
    {system : System State Clock Draw Result Thread} {thread : Thread}
    (idle : system.phase thread = .idle) (now : Clock) (value : Draw) :
    ∃ next answer, Transition.run (step poisons critical) system
        [.readClock thread now, .critical thread value] = some next ∧
      next.returns = system.returns ++ [answer] ∧ next.poisoned = system.poisoned ∧
      (system.poisoned = true → next.cell = system.cell ∧ answer.result = none) ∧
      (system.poisoned = false → next.cell = (critical system.cell now value).state ∧
        answer.result = some (critical system.cell now value).result) := by
  cases poisoned : system.poisoned with
  | true =>
      refine ⟨{ system with
        phase := Function.update (Function.update system.phase thread (.timed now)) thread .idle
        returns := system.returns ++ [⟨thread, none, none⟩] }, ⟨thread, none, none⟩, ?_, rfl,
        poisoned, fun _ => ⟨rfl, rfl⟩, fun impossible => Bool.noConfusion impossible⟩
      simp [Transition.run, step, idle, poisoned]
  | false =>
      let outcome := critical system.cell now value
      refine ⟨{ system with
        cell := outcome.state
        phase := Function.update (Function.update system.phase thread (.timed now)) thread .idle
        updates := logged system.updates thread now outcome
        returns := system.returns ++ [⟨thread, outcome.installed, some outcome.result⟩] },
        ⟨thread, outcome.installed, some outcome.result⟩, ?_, rfl, poisoned,
        fun impossible => Bool.noConfusion impossible, fun _ => ⟨rfl, rfl⟩⟩
      simp [Transition.run, step, idle, poisoned, outcome]

end Semantics

/-! ## Turns -/

theorem exists_logged_eq (updates : List (Update State Clock Draw Thread)) (thread : Thread)
    (now : Clock) (outcome : Outcome State Draw Result) :
    ∃ more, logged updates thread now outcome = updates ++ more := by
  unfold logged
  cases outcome.installed with
  | some next => exact ⟨_, rfl⟩
  | none => exact ⟨[], (List.append_nil _).symm⟩

/-- What a thread does with the lock: a call at the reading it came with, or a panic. -/
inductive Turn (Thread Clock : Type) where
  | call (thread : Thread) (now : Clock)
  | panic
deriving DecidableEq, Repr

def Turn.now? : Turn Thread Clock → Option Clock
  | .call _ now => some now
  | .panic => none

/-- The turn that a step takes. -/
def turns (system : System State Clock Draw Result Thread) :
    Label Thread Clock Draw → List (Turn Thread Clock)
  | .critical thread _ =>
      match system.phase thread with
      | .timed now => [.call thread now]
      | .idle => []
  | .panic _ => [.panic]
  | .readClock _ _ => []

/-- The turns of a run, in the order in which the lock was held. -/
def allTurns [DecidableEq Thread] (poisons : Bool)
    (critical : State → Clock → Draw → Outcome State Draw Result) (origin : State)
    (labels : List (Label Thread Clock Draw)) : List (Turn Thread Clock) :=
  Transition.logged (step poisons critical) turns (start origin) labels

/-! ## Invariant -/

/-- An answer is the poisoning error, a report of the installed state, or the
plan's own refusal. -/
structure ReturnOk (protocol : Protocol State Clock Draw Result) (Good : State → Prop)
    (Admissible : Clock → Prop) (answer : Return State Result Thread) : Prop where
  installed : ∀ state, answer.installed = some state →
    answer.result = some (protocol.ready state)
  refused : answer.installed = none → ∀ result, answer.result = some result →
    ∃ state now, Good state ∧ Admissible now ∧ protocol.plan state now = .wait result

structure Inv (protocol : Protocol State Clock Draw Result) (Good : State → Prop)
    (Admissible : Clock → Prop) (origin : State)
    (system : System State Clock Draw Result Thread) : Prop where
  replays : protocol.Replays origin system.updates system.cell
  admissible : ∀ update ∈ system.updates, Admissible update.now
  phases : ∀ thread now, system.phase thread = .timed now → Admissible now
  returnsOk : ∀ answer ∈ system.returns, ReturnOk protocol Good Admissible answer
  answered : system.returns.filterMap
      (fun answer => answer.installed.map fun state => (answer.thread, state)) =
    system.updates.map fun update => (update.thread, update.next)

section Preservation

variable {protocol : Protocol State Clock Draw Result} {Good : State → Prop}
  {Admissible : Clock → Prop} {origin : State}
  {system next : System State Clock Draw Result Thread}

theorem Inv.start (origin : State) :
    Inv protocol Good Admissible origin (start origin : System State Clock Draw Result Thread) :=
  ⟨rfl, by simp [LockedCell.start], by simp [LockedCell.start], by simp [LockedCell.start], rfl⟩

/-- What a critical section does to the log, in the terms of the protocol. -/
theorem Implements.cases {critical : State → Clock → Draw → Outcome State Draw Result}
    (implements : Implements protocol critical) (state : State) (now : Clock) (value : Draw) :
    (∃ result, protocol.plan state now = .wait result ∧
        critical state now value = ⟨state, result, none, none⟩) ∨
      ∃ drawn target, (protocol.plan state now).Resolves drawn target ∧
        critical state now value = ⟨target, protocol.ready target, some target, drawn⟩ := by
  have outcome := implements state now value
  cases plan : protocol.plan state now with
  | wait result =>
      rw [plan] at outcome
      exact Or.inl ⟨result, rfl, outcome⟩
  | commit target =>
      rw [plan] at outcome
      exact Or.inr ⟨none, target, .commit target, outcome⟩
  | draw target =>
      rw [plan] at outcome
      exact Or.inr ⟨some value, target value, .draw target value, outcome⟩

variable [DecidableEq Thread]

private theorem phases_update {phase : Thread → Phase Clock} {thread : Thread}
    {entered : Phase Clock}
    (phases : ∀ thread now, phase thread = .timed now → Admissible now)
    (enteredOk : ∀ now, entered = .timed now → Admissible now) :
    ∀ other now, Function.update phase thread entered other = .timed now → Admissible now := by
  intro other now timed
  by_cases same : other = thread
  · subst same
    rw [Function.update_self] at timed
    exact enteredOk now timed
  · rw [Function.update_of_ne same] at timed
    exact phases other now timed

/-- A thread that leaves the lock carries no reading. -/
private theorem phases_idle {phase : Thread → Phase Clock} {thread : Thread}
    (phases : ∀ thread now, phase thread = .timed now → Admissible now) :
    ∀ other now, Function.update phase thread .idle other = .timed now → Admissible now := by
  apply phases_update phases
  intro now impossible
  cases impossible

/-- An answer that installs nothing: the poisoning error or the plan's refusal. -/
theorem Inv.refuse (inv : Inv protocol Good Admissible origin system) (thread : Thread)
    {result : Option Result}
    (refused : ∀ answered, result = some answered →
      ∃ state now, Good state ∧ Admissible now ∧ protocol.plan state now = .wait answered) :
    Inv protocol Good Admissible origin
      { system with
        phase := Function.update system.phase thread .idle
        returns := system.returns ++ [⟨thread, none, result⟩] } := by
  refine ⟨inv.replays, inv.admissible, phases_idle inv.phases, ?_, ?_⟩
  · show ∀ answer ∈ system.returns ++ [⟨thread, none, result⟩], _
    rw [List.forall_mem_append, List.forall_mem_singleton]
    exact ⟨inv.returnsOk, by simp, fun _ => refused⟩
  · simpa using inv.answered

/-- An answer that reports the state its critical section installed. -/
theorem Inv.install (inv : Inv protocol Good Admissible origin system) (thread : Thread)
    {now : Clock} {drawn : Option Draw} {target : State} (readingOk : Admissible now)
    (resolves : (protocol.plan system.cell now).Resolves drawn target) :
    Inv protocol Good Admissible origin
      { system with
        cell := target
        phase := Function.update system.phase thread .idle
        updates := system.updates ++ [⟨thread, now, drawn, system.updates.length, target⟩]
        returns := system.returns ++
          [⟨thread, some target, some (protocol.ready target)⟩] } := by
  refine ⟨?_, ?_, phases_idle inv.phases, ?_, ?_⟩
  · exact replays_append.mpr ⟨system.cell, inv.replays, resolves, rfl⟩
  · show ∀ update ∈ system.updates ++ [_], Admissible update.now
    rw [List.forall_mem_append, List.forall_mem_singleton]
    exact ⟨inv.admissible, readingOk⟩
  · show ∀ answer ∈ system.returns ++ [⟨thread, some target, some (protocol.ready target)⟩], _
    rw [List.forall_mem_append, List.forall_mem_singleton]
    refine ⟨inv.returnsOk, ?_, by simp⟩
    intro state same
    cases same
    rfl
  · simp [inv.answered]

/-- Every step keeps the invariant; new clock readings must be admissible. -/
theorem Inv.step (keeps : protocol.Keeps Good Admissible) (good : Good origin)
    {poisons : Bool} {critical : State → Clock → Draw → Outcome State Draw Result}
    (implements : Implements protocol critical)
    (inv : Inv protocol Good Admissible origin system) {label : Label Thread Clock Draw}
    (readingOk : ∀ thread now, label = .readClock thread now → Admissible now)
    (stepped : LockedCell.step poisons critical system label = some next) :
    Inv protocol Good Admissible origin next := by
  cases moves_of_step stepped with
  | readClock thread now =>
      refine ⟨inv.replays, inv.admissible, phases_update inv.phases ?_, inv.returnsOk,
        inv.answered⟩
      intro reading same
      cases same
      exact readingOk thread now rfl
  | refuse thread value now timed poisoned => exact inv.refuse thread (by simp)
  | serve thread value now timed sound =>
      have admissible := inv.phases thread now timed
      obtain ⟨cellGood, _⟩ := replays_good keeps good inv.admissible inv.replays
      rcases implements.cases system.cell now value with
        ⟨result, plan, outcome⟩ | ⟨drawn, target, resolves, outcome⟩
      · rw [outcome]
        apply inv.refuse thread
        intro answered same
        cases same
        exact ⟨system.cell, now, cellGood, admissible, plan⟩
      · rw [outcome]
        exact inv.install thread admissible resolves
  | panic thread now timed sound =>
      exact ⟨inv.replays, inv.admissible, phases_idle inv.phases, inv.returnsOk, inv.answered⟩

/-- A step that answers keeps the cell unless it answers Ready. -/
theorem cell_of_step {poisons : Bool}
    {critical : State → Clock → Draw → Outcome State Draw Result}
    (implements : Implements protocol critical) {label : Label Thread Clock Draw}
    (stepped : LockedCell.step poisons critical system label = some next)
    {answer : Return State Result Thread}
    (appended : next.returns = system.returns ++ [answer]) :
    next.cell = system.cell ∨ ∃ state, answer.result = some (protocol.ready state) := by
  cases moves_of_step stepped with
  | readClock | refuse | panic => exact Or.inl rfl
  | serve thread value now timed sound =>
      rcases implements.cases system.cell now value with
        ⟨result, _, outcome⟩ | ⟨drawn, target, _, outcome⟩
      · rw [outcome]
        exact Or.inl rfl
      · simp only [outcome, List.append_cancel_left_eq, List.cons.injEq, and_true] at appended
        rw [← appended]
        exact Or.inr ⟨target, rfl⟩

/-- The labels of a schedule read only admissible clock values. -/
def Admits (Admissible : Clock → Prop) (labels : List (Label Thread Clock Draw)) : Prop :=
  ∀ thread now, Label.readClock thread now ∈ labels → Admissible now

/-- The invariant holds after every interleaving. -/
theorem Inv.run (keeps : protocol.Keeps Good Admissible) (good : Good origin)
    {poisons : Bool} {critical : State → Clock → Draw → Outcome State Draw Result}
    (implements : Implements protocol critical)
    {labels : List (Label Thread Clock Draw)} (admits : Admits Admissible labels)
    (ran : Transition.run (LockedCell.step poisons critical) (LockedCell.start origin) labels =
      some system) :
    Inv protocol Good Admissible origin system := by
  refine Transition.run_invariant_labels (Inv protocol Good Admissible origin)
    (fun label => ∀ thread now, label = .readClock thread now → Admissible now) ?_
    (Inv.start origin) ?_ ran
  · intro state label next inv readingOk stepped
    exact inv.step keeps good implements readingOk stepped
  · intro label member thread now same
    exact admits thread now (same ▸ member)

end Preservation

end Ferroid.Library.LockedCell
