import Mathlib.Data.Fintype.Card
import Ferroid.Library.OptimisticCell

/-!
Contract: how much work racing `compare_exchange` attempts can waste.

Owns the threads whose load is out of date, the count of answers that a lost race gave,
and the bound that makes such a cell lock-free: an update can spoil one attempt of every
other thread and no more, so lost races are paid for by updates.

Does not own the interleaving semantics (`Library.OptimisticCell`).
-/

namespace Ferroid.Library.OptimisticCell

open Ferroid.Library.Replay

variable {State Clock Draw Result Thread : Type}

/-- The attempt rests on a load that an update has overtaken. -/
def Phase.Stale (updates : Nat) : Phase State Clock Draw → Prop
  | .idle => False
  | .timed _ => False
  | .loaded _ _ since => since < updates
  | .proposing _ _ _ _ since => since < updates

instance (updates : Nat) : (phase : Phase State Clock Draw) → Decidable (phase.Stale updates)
  | .idle => inferInstanceAs (Decidable False)
  | .timed _ => inferInstanceAs (Decidable False)
  | .loaded _ _ since => inferInstanceAs (Decidable (since < updates))
  | .proposing _ _ _ _ since => inferInstanceAs (Decidable (since < updates))

namespace System

variable [Fintype Thread]

/-- The threads whose next `compare_exchange` is bound to fail. -/
def stale (system : System State Clock Draw Result Thread) : Finset Thread :=
  Finset.univ.filter fun thread => (system.phase thread).Stale system.updates.length

theorem mem_stale {system : System State Clock Draw Result Thread} {thread : Thread} :
    thread ∈ system.stale ↔ (system.phase thread).Stale system.updates.length := by
  rw [stale, Finset.mem_filter]
  exact and_iff_right (Finset.mem_univ thread)

end System

/-- How many answers report a lost race. -/
def lostRaces [DecidableEq Result] (protocol : Protocol State Clock Draw Result)
    (system : System State Clock Draw Result Thread) : Nat :=
  system.returns.countP fun answer => answer.result = protocol.lost

section Answers

variable [DecidableEq Thread] [DecidableEq Result] {protocol : Protocol State Clock Draw Result}

theorem lostRaces_answer (system : System State Clock Draw Result Thread) (thread : Thread)
    (since : Nat) (result : Result) :
    lostRaces protocol (system.answer thread since result) =
      lostRaces protocol system + if result = protocol.lost then 1 else 0 := by
  simp [lostRaces, System.answer, List.countP_append, List.countP_singleton]

theorem lostRaces_install (system : System State Clock Draw Result Thread)
    (update : Update State Clock Draw Thread) (result : Result) :
    lostRaces protocol (system.install update result) =
      lostRaces protocol system + if result = protocol.lost then 1 else 0 := by
  simp [lostRaces, System.install, List.countP_append, List.countP_singleton]

end Answers

section Bound

variable [Fintype Thread] [DecidableEq Thread] {system : System State Clock Draw Result Thread}
  {thread : Thread}

/-- A thread that moves from one phase to another that is as current keeps the others. -/
theorem stale_enter {phase : Phase State Clock Draw}
    (asBefore : phase.Stale system.updates.length ↔
      (system.phase thread).Stale system.updates.length) :
    (system.enter thread phase).stale = system.stale := by
  ext other
  rw [System.mem_stale, System.mem_stale]
  by_cases same : other = thread
  · subst same
    simpa [System.enter] using asBefore
  · simp [System.enter, Function.update_of_ne same]

/-- A thread that answers without an update is no longer stale. -/
theorem stale_answer (system : System State Clock Draw Result Thread) (thread : Thread)
    (since : Nat) (result : Result) :
    (system.answer thread since result).stale = system.stale.erase thread := by
  ext other
  rw [Finset.mem_erase, System.mem_stale, System.mem_stale]
  by_cases same : other = thread
  · subst same
    simp [System.answer, Phase.Stale]
  · simp [System.answer, same]

/-- An update makes at most all other threads stale. -/
theorem card_stale_install (system : System State Clock Draw Result Thread)
    (update : Update State Clock Draw Thread) (result : Result) :
    (system.install update result).stale.card ≤ Fintype.card Thread - 1 := by
  have others : (system.install update result).stale ⊆ Finset.univ.erase update.thread := by
    intro other member
    refine Finset.mem_erase.mpr ⟨?_, Finset.mem_univ other⟩
    rintro rfl
    rw [System.mem_stale] at member
    simp [System.install, Phase.Stale] at member
  have bound := Finset.card_le_card others
  rw [Finset.card_erase_of_mem (Finset.mem_univ _), Finset.card_univ] at bound
  exact bound

variable [DecidableEq Result] {protocol : Protocol State Clock Draw Result}

/-- Lost races, and those that are bound to follow, are paid for by the updates. -/
def Paid (protocol : Protocol State Clock Draw Result)
    (system : System State Clock Draw Result Thread) : Prop :=
  lostRaces protocol system + system.stale.card ≤
    (Fintype.card Thread - 1) * system.updates.length

variable [DecidableEq State] {Good : State → Prop} {Admissible : Clock → Prop} {origin : State}
  {next : System State Clock Draw Result Thread}

theorem Paid.step (readyNotLost : ∀ state, protocol.ready state ≠ protocol.lost)
    (waitNotLost : ∀ state now result, protocol.plan state now = .wait result →
      result ≠ protocol.lost)
    (inv : Inv protocol Good Admissible origin system) (paid : Paid protocol system)
    {label : Label Thread Clock Draw}
    (stepped : OptimisticCell.step protocol system label = some next) : Paid protocol next := by
  unfold Paid at *
  cases moves_of_step stepped with
  | readClock mover now idle =>
      rw [stale_enter (by rw [idle]; exact Iff.rfl)]
      exact paid
  | wait mover now result timed plan =>
      rw [lostRaces_answer, if_neg (waitNotLost _ _ _ plan), stale_answer]
      exact Nat.le_trans (Nat.add_le_add_left Finset.card_erase_le _) paid
  | propose mover now target timed plan =>
      rw [stale_enter (by rw [timed]; simp [Phase.Stale])]
      exact paid
  | pause mover now target timed plan =>
      rw [stale_enter (by rw [timed]; simp [Phase.Stale])]
      exact paid
  | draw mover now seen since target value loaded plan =>
      rw [stale_enter (by rw [loaded]; exact Iff.rfl)]
      exact paid
  | succeed mover now drawn target since proposing =>
      have spoiled := card_stale_install system ⟨mover, now, drawn, since, target⟩
        (protocol.ready target)
      have one : (system.install ⟨mover, now, drawn, since, target⟩
          (protocol.ready target)).updates.length = system.updates.length + 1 :=
        List.length_append
      rw [lostRaces_install, if_neg (readyNotLost target), one, Nat.mul_succ]
      omega
  | lose mover now drawn seen target since proposing changed =>
      -- The load was overtaken, so this thread was among the stale ones.
      have wasStale : mover ∈ system.stale := by
        have phaseOk := inv.phases mover
        rw [proposing] at phaseOk
        obtain ⟨update, later, _⟩ := phaseOk.2.1.overtaken inv.replays changed
        have nonempty := List.length_pos_of_mem later
        rw [List.length_drop] at nonempty
        rw [System.mem_stale, proposing]
        show since < system.updates.length
        omega
      have positive := Finset.card_pos.mpr ⟨mover, wasStale⟩
      rw [lostRaces_answer, if_pos rfl, stale_answer, Finset.card_erase_of_mem wasStale]
      show _ ≤ (Fintype.card Thread - 1) * system.updates.length
      omega

/-- Every lost race of every interleaving is paid for: each update costs every other
thread at most one attempt. No clock reading is excluded. -/
theorem lostRaces_le (readyNotLost : ∀ state, protocol.ready state ≠ protocol.lost)
    (waitNotLost : ∀ state now result, protocol.plan state now = .wait result →
      result ≠ protocol.lost)
    {labels : List (Label Thread Clock Draw)}
    (ran : Transition.run (OptimisticCell.step protocol) (OptimisticCell.start origin) labels =
      some system) :
    lostRaces protocol system ≤ (Fintype.card Thread - 1) * system.updates.length := by
  have keeps : protocol.Keeps (fun _ => True) (fun _ => True) := fun _ _ _ _ _ _ _ => trivial
  have both := Transition.run_invariant_always
    (fun system => Inv protocol (fun _ => True) (fun _ => True) origin system ∧
      Paid protocol system) ?_ ⟨Inv.start origin, ?_⟩ ran
  · have paid := both.2
    unfold Paid at paid
    omega
  · rintro state label next ⟨inv, paid⟩ stepped
    exact ⟨inv.step keeps trivial (fun _ _ _ => trivial) stepped,
      paid.step readyNotLost waitNotLost inv stepped⟩
  · show 0 + (System.stale (OptimisticCell.start origin)).card ≤ _ * 0
    have none : (OptimisticCell.start origin : System State Clock Draw Result Thread).stale = ∅ := by
      ext thread
      rw [System.mem_stale]
      simp [OptimisticCell.start, Phase.Stale]
    rw [none]
    exact Nat.le_refl _

end Bound

end Ferroid.Library.OptimisticCell
