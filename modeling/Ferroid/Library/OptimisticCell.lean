import Mathlib.Logic.Function.Basic
import Ferroid.Library.Replay
import Ferroid.Library.Transition

/-!
Contract: one atomic cell updated by racing `compare_exchange` attempts.

Owns the interleaving semantics (every clock read, load, random draw and
`compare_exchange` of every thread is one step, and any thread may move next),
the ghost log of the updates that took effect and of the answers given, and the
theorem that for a growing protocol the log is a sequential replay and no
`compare_exchange` can succeed after an intervening update.

Assumes a strong `compare_exchange` and coherence of the single cell.
-/

namespace Ferroid.Library.OptimisticCell

open Ferroid.Library.Replay

variable {State Clock Draw Result Thread : Type}

/-- Where one thread stands in its attempt. `since` counts the updates that had
taken effect at its load. -/
inductive Phase (State Clock Draw : Type) where
  | idle
  | timed (now : Clock)
  | loaded (now : Clock) (seen : State) (since : Nat)
  | proposing (now : Clock) (drawn : Option Draw) (seen next : State) (since : Nat)

/-- The atomic steps of a thread. -/
inductive Label (Thread Clock Draw : Type) where
  | readClock (thread : Thread) (now : Clock)
  | load (thread : Thread)
  | draw (thread : Thread) (value : Draw)
  | compareExchange (thread : Thread)

/-- One answer to a caller, given when `upto` updates had taken effect.
`installed` is the state the attempt put in the cell, if it did. -/
structure Return (State Result Thread : Type) where
  thread : Thread
  since : Nat
  upto : Nat
  installed : Option State
  result : Result

structure System (State Clock Draw Result Thread : Type) where
  cell : State
  phase : Thread → Phase State Clock Draw
  updates : List (Update State Clock Draw Thread)
  returns : List (Return State Result Thread)

/-- A fresh cell with every thread idle. -/
def start (cell : State) : System State Clock Draw Result Thread :=
  ⟨cell, fun _ => .idle, [], []⟩

section Semantics

variable [DecidableEq Thread]

/-- A thread moves to another phase; nothing shared changes. -/
def System.enter (system : System State Clock Draw Result Thread) (thread : Thread)
    (phase : Phase State Clock Draw) : System State Clock Draw Result Thread :=
  { system with phase := Function.update system.phase thread phase }

/-- A thread returns without having changed the cell. -/
def System.answer (system : System State Clock Draw Result Thread) (thread : Thread)
    (since : Nat) (result : Result) : System State Clock Draw Result Thread :=
  { system with
    phase := Function.update system.phase thread .idle
    returns := system.returns ++ [⟨thread, since, system.updates.length, none, result⟩] }

/-- A thread's update takes effect and it returns. -/
def System.install (system : System State Clock Draw Result Thread)
    (update : Update State Clock Draw Thread) (result : Result) :
    System State Clock Draw Result Thread :=
  { cell := update.next
    phase := Function.update system.phase update.thread .idle
    updates := system.updates ++ [update]
    returns := system.returns ++
      [⟨update.thread, update.since, system.updates.length, some update.next, result⟩] }

variable [DecidableEq State] (protocol : Protocol State Clock Draw Result)

/-- The step function; `none` when the thread is not at that point. -/
def step (system : System State Clock Draw Result Thread) :
    Label Thread Clock Draw → Option (System State Clock Draw Result Thread)
  | .readClock thread now =>
      match system.phase thread with
      | .idle => some (system.enter thread (.timed now))
      | _ => none
  | .load thread =>
      match system.phase thread with
      | .timed now =>
          match protocol.plan system.cell now with
          | .wait result => some (system.answer thread system.updates.length result)
          | .commit next =>
              some (system.enter thread
                (.proposing now none system.cell next system.updates.length))
          | .draw _ => some (system.enter thread (.loaded now system.cell system.updates.length))
      | _ => none
  | .draw thread value =>
      match system.phase thread with
      | .loaded now seen since =>
          match protocol.plan seen now with
          | .draw next =>
              some (system.enter thread (.proposing now (some value) seen (next value) since))
          | _ => none
      | _ => none
  | .compareExchange thread =>
      match system.phase thread with
      | .proposing now drawn seen next since =>
          if system.cell = seen then
            some (system.install ⟨thread, now, drawn, since, next⟩ (protocol.ready next))
          else
            some (system.answer thread since protocol.lost)
      | _ => none

/-- What one step can do. Every invariant below is read off this case list. -/
inductive Moves (system : System State Clock Draw Result Thread) :
    Label Thread Clock Draw → System State Clock Draw Result Thread → Prop where
  | readClock (thread : Thread) (now : Clock) (idle : system.phase thread = .idle) :
      Moves system (.readClock thread now) (system.enter thread (.timed now))
  | wait (thread : Thread) (now : Clock) (result : Result)
      (timed : system.phase thread = .timed now)
      (plan : protocol.plan system.cell now = .wait result) :
      Moves system (.load thread) (system.answer thread system.updates.length result)
  | propose (thread : Thread) (now : Clock) (next : State)
      (timed : system.phase thread = .timed now)
      (plan : protocol.plan system.cell now = .commit next) :
      Moves system (.load thread)
        (system.enter thread (.proposing now none system.cell next system.updates.length))
  | pause (thread : Thread) (now : Clock) (next : Draw → State)
      (timed : system.phase thread = .timed now)
      (plan : protocol.plan system.cell now = .draw next) :
      Moves system (.load thread)
        (system.enter thread (.loaded now system.cell system.updates.length))
  | draw (thread : Thread) (now : Clock) (seen : State) (since : Nat) (next : Draw → State)
      (value : Draw) (loaded : system.phase thread = .loaded now seen since)
      (plan : protocol.plan seen now = .draw next) :
      Moves system (.draw thread value)
        (system.enter thread (.proposing now (some value) seen (next value) since))
  | succeed (thread : Thread) (now : Clock) (drawn : Option Draw) (next : State) (since : Nat)
      (proposing : system.phase thread = .proposing now drawn system.cell next since) :
      Moves system (.compareExchange thread)
        (system.install ⟨thread, now, drawn, since, next⟩ (protocol.ready next))
  | lose (thread : Thread) (now : Clock) (drawn : Option Draw) (seen next : State) (since : Nat)
      (proposing : system.phase thread = .proposing now drawn seen next since)
      (changed : system.cell ≠ seen) :
      Moves system (.compareExchange thread) (system.answer thread since protocol.lost)

variable {protocol}

theorem moves_of_step {system next : System State Clock Draw Result Thread}
    {label : Label Thread Clock Draw} (stepped : step protocol system label = some next) :
    Moves protocol system label next := by
  cases label with
  | readClock thread now =>
      simp only [step] at stepped
      split at stepped
      · rename_i idle
        cases stepped
        exact .readClock thread now idle
      · cases stepped
  | load thread =>
      simp only [step] at stepped
      split at stepped
      · rename_i now timed
        split at stepped
        · rename_i result plan
          cases stepped
          exact .wait thread now result timed plan
        · rename_i target plan
          cases stepped
          exact .propose thread now target timed plan
        · rename_i target plan
          cases stepped
          exact .pause thread now target timed plan
      · cases stepped
  | draw thread value =>
      simp only [step] at stepped
      split at stepped
      · rename_i now seen since loaded
        split at stepped
        · rename_i target plan
          cases stepped
          exact .draw thread now seen since target value loaded plan
        · cases stepped
      · cases stepped
  | compareExchange thread =>
      simp only [step] at stepped
      split at stepped
      · rename_i now drawn seen target since proposing
        split at stepped
        · rename_i same
          cases stepped
          subst same
          exact .succeed thread now drawn target since proposing
        · rename_i changed
          cases stepped
          exact .lose thread now drawn seen target since proposing changed
      · cases stepped

end Semantics

/-! ## Invariant -/

/-- What a thread remembers of its load: the state after `since` updates, none
of the later ones being its own. -/
structure Seen (protocol : Protocol State Clock Draw Result) (origin : State)
    (updates : List (Update State Clock Draw Thread)) (thread : Thread)
    (seen : State) (since : Nat) : Prop where
  since_le : since ≤ updates.length
  replays : protocol.Replays origin (updates.take since) seen
  others : ∀ update ∈ updates.drop since, update.thread ≠ thread

/-- The phase of a thread agrees with the log. -/
def PhaseOk (protocol : Protocol State Clock Draw Result) (Admissible : Clock → Prop)
    (origin : State) (updates : List (Update State Clock Draw Thread)) (thread : Thread) :
    Phase State Clock Draw → Prop
  | .idle => True
  | .timed now => Admissible now
  | .loaded now seen since =>
      Admissible now ∧ Seen protocol origin updates thread seen since
  | .proposing now drawn seen next since =>
      Admissible now ∧ Seen protocol origin updates thread seen since ∧
        (protocol.plan seen now).Resolves drawn next

/-- An answer agrees with the log: it reports an installed state as ready, or
it is a plan's own refusal, or some other thread's update took effect between
its load and its `compare_exchange`. -/
structure ReturnOk (protocol : Protocol State Clock Draw Result) (Good : State → Prop)
    (Admissible : Clock → Prop) (updates : List (Update State Clock Draw Thread))
    (answer : Return State Result Thread) : Prop where
  upto_le : answer.upto ≤ updates.length
  installed : ∀ state, answer.installed = some state → answer.result = protocol.ready state
  refused : answer.installed = none →
    (∃ state now, Good state ∧ Admissible now ∧
        protocol.plan state now = .wait answer.result) ∨
      answer.result = protocol.lost ∧
        ∃ update ∈ (updates.take answer.upto).drop answer.since, update.thread ≠ answer.thread

structure Inv (protocol : Protocol State Clock Draw Result) (Good : State → Prop)
    (Admissible : Clock → Prop) (origin : State)
    (system : System State Clock Draw Result Thread) : Prop where
  replays : protocol.Replays origin system.updates system.cell
  admissible : ∀ update ∈ system.updates, Admissible update.now
  phases : ∀ thread,
    PhaseOk protocol Admissible origin system.updates thread (system.phase thread)
  returnsOk : ∀ answer ∈ system.returns,
    ReturnOk protocol Good Admissible system.updates answer
  answered : system.returns.filterMap
      (fun answer => answer.installed.map fun state => (answer.thread, state)) =
    system.updates.map fun update => (update.thread, update.next)

section Preservation

variable {protocol : Protocol State Clock Draw Result} {Good : State → Prop}
  {Admissible : Clock → Prop} {rank : State → Nat} {origin : State}
  {updates : List (Update State Clock Draw Thread)} {update : Update State Clock Draw Thread}

/-- Another thread's update keeps what a thread remembers. -/
theorem Seen.snoc {thread : Thread} {seen : State} {since : Nat}
    (remembered : Seen protocol origin updates thread seen since)
    (other : update.thread ≠ thread) :
    Seen protocol origin (updates ++ [update]) thread seen since := by
  have bound := remembered.since_le
  refine ⟨by simp; omega, ?_, ?_⟩
  · rw [List.take_append_of_le_length bound]
    exact remembered.replays
  · intro later member
    rw [List.drop_append_of_le_length bound, List.mem_append, List.mem_singleton] at member
    rcases member with earlier | rfl
    · exact remembered.others later earlier
    · exact other

theorem PhaseOk.snoc {thread : Thread} {phase : Phase State Clock Draw}
    (phaseOk : PhaseOk protocol Admissible origin updates thread phase)
    (other : update.thread ≠ thread) :
    PhaseOk protocol Admissible origin (updates ++ [update]) thread phase := by
  cases phase with
  | idle => trivial
  | timed now => exact phaseOk
  | loaded now seen since => exact ⟨phaseOk.1, phaseOk.2.snoc other⟩
  | proposing now drawn seen next since =>
      exact ⟨phaseOk.1, phaseOk.2.1.snoc other, phaseOk.2.2⟩

theorem ReturnOk.snoc {answer : Return State Result Thread}
    (answerOk : ReturnOk protocol Good Admissible updates answer) :
    ReturnOk protocol Good Admissible (updates ++ [update]) answer := by
  have bound := answerOk.upto_le
  refine ⟨by simp; omega, answerOk.installed, ?_⟩
  intro absent
  rw [List.take_append_of_le_length bound]
  exact answerOk.refused absent

/-- A load that sees the current state was followed by no update: the cell never
returns to an earlier state, so `compare_exchange` has no ABA. -/
theorem Seen.current (grows : protocol.Grows Good Admissible rank) (good : Good origin)
    {final : State} {thread : Thread} {since : Nat}
    (admissible : ∀ update ∈ updates, Admissible update.now)
    (replays : protocol.Replays origin updates final)
    (remembered : Seen protocol origin updates thread final since) :
    since = updates.length := by
  obtain ⟨middle, first, second⟩ := replays_split replays since
  have same : middle = final := replays_unique first remembered.replays
  subst same
  have firstAdmissible : ∀ update ∈ updates.take since, Admissible update.now :=
    fun update member => admissible update (List.mem_of_mem_take member)
  obtain ⟨middleGood, _⟩ := replays_good grows.keeps good firstAdmissible first
  have nothingLater : updates.drop since = [] := by
    by_contra later
    exact Nat.lt_irrefl _ (replays_rank_lt grows middleGood
      (fun update member => admissible update (List.mem_of_mem_drop member)) second later)
  have bound := remembered.since_le
  have := List.drop_eq_nil_iff.mp nothingLater
  omega

/-- A load whose state is gone was followed by another thread's update. -/
theorem Seen.overtaken {seen final : State} {thread : Thread} {since : Nat}
    (replays : protocol.Replays origin updates final)
    (remembered : Seen protocol origin updates thread seen since) (changed : final ≠ seen) :
    ∃ update ∈ updates.drop since, update.thread ≠ thread := by
  have later : updates.drop since ≠ [] := by
    intro nothingLater
    have whole : updates.take since = updates := by
      have := List.drop_eq_nil_iff.mp nothingLater
      exact List.take_of_length_le this
    have prior := remembered.replays
    rw [whole] at prior
    exact changed (replays_unique replays prior)
  obtain ⟨update, member⟩ := List.exists_mem_of_ne_nil _ later
  exact ⟨update, member, remembered.others update member⟩

variable {system next : System State Clock Draw Result Thread}

theorem Inv.start (origin : State) :
    Inv protocol Good Admissible origin (start origin : System State Clock Draw Result Thread) :=
  ⟨rfl, by simp [OptimisticCell.start], fun _ => trivial, by simp [OptimisticCell.start], rfl⟩

variable [DecidableEq Thread]

/-- Moving one thread to a phase that agrees with the log keeps the invariant. -/
theorem Inv.enter (inv : Inv protocol Good Admissible origin system) (thread : Thread)
    (phase : Phase State Clock Draw)
    (phaseOk : PhaseOk protocol Admissible origin system.updates thread phase) :
    Inv protocol Good Admissible origin (system.enter thread phase) := by
  refine ⟨inv.replays, inv.admissible, ?_, inv.returnsOk, inv.answered⟩
  intro other
  by_cases same : other = thread
  · subst same
    simpa [System.enter] using phaseOk
  · simpa [System.enter, Function.update_of_ne same] using inv.phases other

theorem Inv.answer (inv : Inv protocol Good Admissible origin system) (thread : Thread)
    (since : Nat) (result : Result)
    (answerOk : ReturnOk protocol Good Admissible system.updates
      ⟨thread, since, system.updates.length, none, result⟩) :
    Inv protocol Good Admissible origin (system.answer thread since result) := by
  refine ⟨inv.replays, inv.admissible, ?_, ?_, ?_⟩
  · intro other
    by_cases same : other = thread
    · subst same
      simp [System.answer, PhaseOk]
    · simpa [System.answer, Function.update_of_ne same] using inv.phases other
  · show ∀ answer ∈ system.returns ++ [⟨thread, since, system.updates.length, none, result⟩], _
    rw [List.forall_mem_append, List.forall_mem_singleton]
    exact ⟨inv.returnsOk, answerOk⟩
  · simpa [System.answer] using inv.answered

theorem Inv.install (inv : Inv protocol Good Admissible origin system)
    (readingOk : Admissible update.now)
    (resolves : (protocol.plan system.cell update.now).Resolves update.drawn update.next) :
    Inv protocol Good Admissible origin
      (system.install update (protocol.ready update.next)) := by
  refine ⟨?_, ?_, ?_, ?_, ?_⟩
  · exact replays_append.mpr ⟨system.cell, inv.replays, resolves, rfl⟩
  · show ∀ other ∈ system.updates ++ [update], Admissible other.now
    rw [List.forall_mem_append, List.forall_mem_singleton]
    exact ⟨inv.admissible, readingOk⟩
  · intro other
    by_cases same : other = update.thread
    · subst same
      simp [System.install, PhaseOk]
    · simpa [System.install, Function.update_of_ne same] using
        (inv.phases other).snoc (Ne.symm same)
  · intro answer member
    rcases List.mem_append.mp member with earlier | latest
    · exact (inv.returnsOk answer earlier).snoc
    · rw [List.mem_singleton.mp latest]
      refine ⟨by simp [System.install], ?_, ?_⟩
      · intro state same
        cases same
        rfl
      · intro absent
        cases absent
  · simp [System.install, inv.answered]

variable [DecidableEq State]

/-- Every step keeps the invariant; new clock readings must be admissible. -/
theorem Inv.step (keeps : protocol.Keeps Good Admissible) (good : Good origin)
    (inv : Inv protocol Good Admissible origin system) {label : Label Thread Clock Draw}
    (readingOk : ∀ thread now, label = .readClock thread now → Admissible now)
    (stepped : OptimisticCell.step protocol system label = some next) :
    Inv protocol Good Admissible origin next := by
  have loadSeen (thread : Thread) :
      Seen protocol origin system.updates thread system.cell system.updates.length :=
    ⟨Nat.le_refl _, by rw [List.take_length]; exact inv.replays, by simp⟩
  cases moves_of_step stepped with
  | readClock thread now idle =>
      exact inv.enter thread _ (readingOk thread now rfl)
  | wait thread now result timed plan =>
      have phaseOk := inv.phases thread
      rw [timed] at phaseOk
      obtain ⟨cellGood, _⟩ := replays_good keeps good inv.admissible inv.replays
      refine inv.answer thread _ result ⟨Nat.le_refl _, by simp, fun _ => Or.inl ?_⟩
      exact ⟨system.cell, now, cellGood, phaseOk, plan⟩
  | propose thread now target timed plan =>
      have phaseOk := inv.phases thread
      rw [timed] at phaseOk
      exact inv.enter thread _ ⟨phaseOk, loadSeen thread, by rw [plan]; exact .commit target⟩
  | pause thread now target timed plan =>
      have phaseOk := inv.phases thread
      rw [timed] at phaseOk
      exact inv.enter thread _ ⟨phaseOk, loadSeen thread⟩
  | draw thread now seen since target value loaded plan =>
      have phaseOk := inv.phases thread
      rw [loaded] at phaseOk
      exact inv.enter thread _
        ⟨phaseOk.1, phaseOk.2, by rw [plan]; exact .draw target value⟩
  | succeed thread now drawn target since proposing =>
      have phaseOk := inv.phases thread
      rw [proposing] at phaseOk
      obtain ⟨admissible, _, resolves⟩ := phaseOk
      exact inv.install admissible resolves
  | lose thread now drawn seen target since proposing changed =>
      have phaseOk := inv.phases thread
      rw [proposing] at phaseOk
      refine inv.answer thread since _ ⟨Nat.le_refl _, by simp, fun _ => Or.inr ⟨rfl, ?_⟩⟩
      rw [List.take_length]
      exact phaseOk.2.1.overtaken inv.replays changed

/-- The labels of a schedule read only admissible clock values. -/
def Admits (Admissible : Clock → Prop) (labels : List (Label Thread Clock Draw)) : Prop :=
  ∀ thread now, Label.readClock thread now ∈ labels → Admissible now

/-- The invariant holds after every interleaving. -/
theorem Inv.run (keeps : protocol.Keeps Good Admissible) (good : Good origin)
    {labels : List (Label Thread Clock Draw)} (admits : Admits Admissible labels)
    (ran : Transition.run (OptimisticCell.step protocol) (OptimisticCell.start origin) labels =
      some system) :
    Inv protocol Good Admissible origin system := by
  refine Transition.run_invariant_labels (Inv protocol Good Admissible origin)
    (fun label => ∀ thread now, label = .readClock thread now → Admissible now) ?_
    (Inv.start origin) ?_ ran
  · intro state label next inv readingOk stepped
    exact inv.step keeps good readingOk stepped
  · intro label member thread now same
    exact admits thread now (same ▸ member)

/-- For a growing protocol no update takes effect between the load and the
`compare_exchange` of another: the `k`-th update has seen exactly `k` updates. -/
theorem immediate_run (grows : protocol.Grows Good Admissible rank) (good : Good origin)
    {labels : List (Label Thread Clock Draw)} (admits : Admits Admissible labels)
    (ran : Transition.run (OptimisticCell.step protocol) (OptimisticCell.start origin) labels =
      some system) :
    system.updates.map Update.since = List.range system.updates.length := by
  refine (Transition.run_invariant_labels
    (fun system => Inv protocol Good Admissible origin system ∧
      system.updates.map Update.since = List.range system.updates.length)
    (fun label => ∀ thread now, label = .readClock thread now → Admissible now) ?_
    ⟨Inv.start origin, rfl⟩ ?_ ran).2
  · rintro state label next ⟨inv, immediate⟩ readingOk stepped
    refine ⟨inv.step grows.keeps good readingOk stepped, ?_⟩
    cases moves_of_step stepped with
    | succeed thread now drawn target since proposing =>
        have phaseOk := inv.phases thread
        rw [proposing] at phaseOk
        have current := phaseOk.2.1.current grows good inv.admissible inv.replays
        simp [System.install, List.range_succ, immediate, current]
    | _ => exact immediate
  · intro label member thread now same
    exact admits thread now (same ▸ member)

end Preservation

/-! ## Draws that lose -/

section LostDraw

variable [DecidableEq Thread] [DecidableEq State]
  {protocol : Protocol State Clock Draw Result}

/-- The thread that takes the step. -/
def Label.thread : Label Thread Clock Draw → Thread
  | .readClock thread _ => thread
  | .load thread => thread
  | .draw thread _ => thread
  | .compareExchange thread => thread

/-- A step of one thread does not look at the phase of another. -/
theorem step_enter_of_ne (system : System State Clock Draw Result Thread)
    {label : Label Thread Clock Draw} {thread : Thread} (other : label.thread ≠ thread)
    (phase : Phase State Clock Draw) :
    step protocol (system.enter thread phase) label =
      (step protocol system label).map fun next => next.enter thread phase := by
  have commutes (phase₁ : Phase State Clock Draw) :
      Function.update (Function.update system.phase thread phase) label.thread phase₁ =
        Function.update (Function.update system.phase label.thread phase₁) thread phase :=
    Function.update_comm other.symm _ _ _
  have same : Function.update system.phase thread phase label.thread =
      system.phase label.thread :=
    Function.update_of_ne other _ _
  cases label with
  | readClock mover now =>
      simp only [Label.thread] at commutes same
      simp only [step, System.enter, same]
      cases system.phase mover with
      | idle => simp only [commutes, Option.map_some]
      | _ => rfl
  | load mover =>
      simp only [Label.thread] at commutes same
      simp only [step, System.enter, System.answer, same]
      cases system.phase mover with
      | timed now =>
          cases planned : protocol.plan system.cell now with
          | _ => simp only [planned, commutes, Option.map_some]
      | _ => rfl
  | draw mover value =>
      simp only [Label.thread] at commutes same
      simp only [step, System.enter, same]
      cases system.phase mover with
      | loaded now seen since =>
          cases planned : protocol.plan seen now with
          | draw next => simp only [planned, commutes, Option.map_some]
          | _ => simp only [planned, Option.map_none]
      | _ => rfl
  | compareExchange mover =>
      simp only [Label.thread] at commutes same
      simp only [step, System.enter, System.answer, System.install, same]
      cases system.phase mover with
      | proposing now drawn seen next since =>
          by_cases current : system.cell = seen
          · simp only [current, if_true, commutes, Option.map_some]
          · simp only [current, if_false, commutes, Option.map_some]
      | _ => rfl

theorem run_enter_of_ne (system : System State Clock Draw Result Thread)
    {labels : List (Label Thread Clock Draw)} {thread : Thread}
    (others : ∀ label ∈ labels, label.thread ≠ thread) (phase : Phase State Clock Draw) :
    Transition.run (step protocol) (system.enter thread phase) labels =
      (Transition.run (step protocol) system labels).map
        fun next => next.enter thread phase := by
  induction labels generalizing system with
  | nil => rfl
  | cons label rest inductionHypothesis =>
      simp only [Transition.run, step_enter_of_ne system (others label (by simp)) phase]
      cases step protocol system label with
      | none => rfl
      | some next =>
          exact inductionHypothesis next fun later member => others later (by simp [member])

/-- Whatever an attempt draws, if its `compare_exchange` then loses, the system
it leaves behind is the same. -/
theorem lost_draw_irrelevant {system left lost : System State Clock Draw Result Thread}
    {thread : Thread} {value other : Draw} {between : List (Label Thread Clock Draw)}
    (others : ∀ label ∈ between, label.thread ≠ thread)
    (drew : step protocol system (.draw thread value) = some left)
    (ran : Transition.run (step protocol) left between = some lost)
    (changed : ∀ now drawn next since,
      lost.phase thread ≠ .proposing now drawn lost.cell next since) :
    Transition.run (step protocol) system (.draw thread other :: between ++
        [.compareExchange thread]) =
      Transition.run (step protocol) system (.draw thread value :: between ++
        [.compareExchange thread]) := by
  -- Both attempts differ in the proposal of `thread` only, which no other step reads.
  obtain ⟨now, seen, since, next, loaded, plan, rfl⟩ : ∃ now seen since next,
      system.phase thread = .loaded now seen since ∧ protocol.plan seen now = .draw next ∧
        left = system.enter thread (.proposing now (some value) seen (next value) since) := by
    cases moves_of_step drew with
    | draw _ now seen since next _ loaded plan => exact ⟨now, seen, since, next, loaded, plan, rfl⟩
  have drewOther : step protocol system (.draw thread other) =
      some (system.enter thread (.proposing now (some other) seen (next other) since)) := by
    simp only [step, loaded, plan]
  rw [run_enter_of_ne system others] at ran
  obtain ⟨reached, middle, rfl⟩ := Option.map_eq_some_iff.mp ran
  have stale : reached.cell ≠ seen := by
    intro current
    apply changed now (some value) (next value) since
    simp only [System.enter, Function.update_self, current]
  rw [List.cons_append, List.cons_append, Transition.run, Transition.run, drew, drewOther]
  simp only [Transition.run_append, run_enter_of_ne system others, middle, Option.map_some,
    Option.bind_some]
  simp only [Transition.run, step, System.enter, Function.update_self, stale, if_false,
    System.answer, Function.update_idem]

end LostDraw

end Ferroid.Library.OptimisticCell
