import Mathlib.Algebra.BigOperators.Group.List.Basic
import Mathlib.Algebra.GroupWithZero.Nat

/-!
Contract: runs of a deterministic labelled transition function.

Owns executing a list of labels, the condition that every step of such a run
is allowed in the state it is taken from, the invariant rule (what one allowed
step preserves, an allowed run preserves), the completion rule (allowed steps
that lower a weight until a goal is met reach the goal), the termination rule
(allowed steps that lower a weight are finitely many) and the potential rule
(steps whose cost is covered by the weight they take away and by a credit of their
label cost no more in all than the first weight and all credits), the invariant rule for
states with the log of their run, and the accounting rule (a measure that every step changes
by what it logs changes over a run by what the run logs).

Does not own any concrete state or label.
-/

namespace Ferroid.Library.Transition

variable {State Label : Type}

/-- Execute labels in order; `none` when one of them is not enabled. -/
def run (step : State → Label → Option State) : State → List Label → Option State
  | state, [] => some state
  | state, label :: rest =>
      match step state label with
      | some next => run step next rest
      | none => none

/-- Every label is allowed in the state in which the run takes it. -/
def Meets (step : State → Label → Option State) (Allowed : State → Label → Prop) :
    State → List Label → Prop
  | _, [] => True
  | state, label :: rest =>
      Allowed state label ∧ ∀ next, step state label = some next → Meets step Allowed next rest

instance Meets.instDecidable (step : State → Label → Option State)
    (Allowed : State → Label → Prop) [∀ state, DecidablePred (Allowed state)] (state : State) :
    ∀ labels, Decidable (Meets step Allowed state labels)
  | [] => isTrue trivial
  | label :: rest =>
      match stepped : step state label with
      | some next =>
          have := instDecidable step Allowed next rest
          decidable_of_iff (Allowed state label ∧ Meets step Allowed next rest)
            ⟨fun both => ⟨both.1, fun other same => by
              rw [stepped] at same
              cases same
              exact both.2⟩, fun meets => ⟨meets.1, meets.2 next stepped⟩⟩
      | none =>
          decidable_of_iff (Allowed state label)
            ⟨fun allowed => ⟨allowed, fun other same => by
              rw [stepped] at same
              cases same⟩, fun meets => meets.1⟩

variable {step : State → Label → Option State} {Allowed : State → Label → Prop}

theorem run_cons {state final : State} {label : Label} {rest : List Label} :
    run step state (label :: rest) = some final ↔
      ∃ next, step state label = some next ∧ run step next rest = some final := by
  simp only [run]
  cases step state label with
  | none => simp
  | some next => simp

theorem run_append {state : State} {front back : List Label} :
    run step state (front ++ back) =
      (run step state front).bind fun next => run step next back := by
  induction front generalizing state with
  | nil => rfl
  | cons label rest inductionHypothesis =>
      simp only [List.cons_append, run]
      cases step state label with
      | none => rfl
      | some next => exact inductionHypothesis

/-- A condition on labels alone holds of a run when it holds of its labels. -/
theorem meets_of_forall {Holds : Label → Prop} {state : State} {labels : List Label}
    (all : ∀ label ∈ labels, Holds label) :
    Meets step (fun _ label => Holds label) state labels := by
  induction labels generalizing state with
  | nil => trivial
  | cons label rest inductionHypothesis =>
      exact ⟨all label (by simp), fun next _ =>
        inductionHypothesis (fun other member => all other (by simp [member]))⟩

/-- Invariant rule: an allowed step preserves `Inv`, so an allowed run does. -/
theorem run_invariant (Inv : State → Prop)
    (preserved : ∀ state label next, Inv state → Allowed state label →
      step state label = some next → Inv next)
    {state final : State} {labels : List Label} (start : Inv state)
    (meets : Meets step Allowed state labels) (ran : run step state labels = some final) :
    Inv final := by
  induction labels generalizing state with
  | nil =>
      simp only [run, Option.some.injEq] at ran
      exact ran ▸ start
  | cons label rest inductionHypothesis =>
      obtain ⟨next, stepped, continued⟩ := run_cons.mp ran
      exact inductionHypothesis (preserved state label next start meets.1 stepped)
        (meets.2 next stepped) continued

/-- Invariant rule for a condition on the labels alone. -/
theorem run_invariant_labels (Inv : State → Prop) (Holds : Label → Prop)
    (preserved : ∀ state label next, Inv state → Holds label →
      step state label = some next → Inv next)
    {state final : State} {labels : List Label} (start : Inv state)
    (all : ∀ label ∈ labels, Holds label) (ran : run step state labels = some final) :
    Inv final :=
  run_invariant Inv preserved start (meets_of_forall all) ran

/-- Invariant rule for a property that every step preserves. -/
theorem run_invariant_always (Inv : State → Prop)
    (preserved : ∀ state label next, Inv state → step state label = some next → Inv next)
    {state final : State} {labels : List Label} (start : Inv state)
    (ran : run step state labels = some final) : Inv final :=
  run_invariant_labels Inv (fun _ => True)
    (fun state label next inv _ stepped => preserved state label next inv stepped) start
    (fun _ _ => trivial) ran

/-- Completion rule: where every good state short of the goal has an allowed step to
a lighter good state, every good state has an allowed run to the goal. -/
theorem run_reaches (weight : State → Nat) (Good Goal : State → Prop)
    (advances : ∀ state, Good state → ¬ Goal state → ∃ label next, Allowed state label ∧
      step state label = some next ∧ Good next ∧ weight next < weight state)
    {state : State} (good : Good state) :
    ∃ labels final, Meets step Allowed state labels ∧ run step state labels = some final ∧
      Good final ∧ Goal final := by
  induction bound : weight state using Nat.strongRecOn generalizing state with
  | ind bound inductionHypothesis =>
      by_cases goal : Goal state
      · exact ⟨[], state, trivial, rfl, good, goal⟩
      · obtain ⟨label, next, allowed, stepped, nextGood, lighter⟩ := advances state good goal
        obtain ⟨labels, final, meets, ran, ends⟩ :=
          inductionHypothesis (weight next) (bound ▸ lighter) nextGood rfl
        refine ⟨label :: labels, final, ⟨allowed, fun other same => ?_⟩,
          run_cons.mpr ⟨next, stepped, ran⟩, ends⟩
        rw [stepped] at same
        cases same
        exact meets

/-- Termination rule: allowed steps that lower the weight of good states can only be
taken so often. -/
theorem length_add_le (weight : State → Nat) (Good : State → Prop)
    (lighter : ∀ state label next, Good state → Allowed state label →
      step state label = some next → weight next < weight state)
    (preserved : ∀ state label next, Good state → step state label = some next → Good next)
    {state final : State} {labels : List Label} (good : Good state)
    (meets : Meets step Allowed state labels) (ran : run step state labels = some final) :
    labels.length + weight final ≤ weight state := by
  induction labels generalizing state with
  | nil =>
      simp only [run, Option.some.injEq] at ran
      simp [ran]
  | cons label rest inductionHypothesis =>
      obtain ⟨next, stepped, continued⟩ := run_cons.mp ran
      have here := lighter state label next good meets.1 stepped
      have later := inductionHypothesis (preserved state label next good stepped)
        (meets.2 next stepped) continued
      rw [List.length_cons]
      omega

/-! ## Costs -/

/-- The cost of the steps of a run, up to one that is not enabled. -/
def totalCost (step : State → Label → Option State) (cost : State → Label → Nat) :
    State → List Label → Nat
  | _, [] => 0
  | state, label :: rest =>
      match step state label with
      | some next => cost state label + totalCost step cost next rest
      | none => 0

/-- Potential rule: where the weight of a good state and the credit of a label pay for
a step and the weight after it, all credits and the first weight pay for a run. -/
theorem totalCost_le (cost : State → Label → Nat) (weight : State → Nat) (credit : Label → Nat)
    (Good : State → Prop)
    (pays : ∀ state label next, Good state → step state label = some next →
      cost state label + weight next ≤ weight state + credit label)
    (preserved : ∀ state label next, Good state → step state label = some next → Good next)
    {state final : State} {labels : List Label} (good : Good state)
    (ran : run step state labels = some final) :
    totalCost step cost state labels + weight final ≤ weight state + (labels.map credit).sum := by
  induction labels generalizing state with
  | nil =>
      simp only [run, Option.some.injEq] at ran
      simp [totalCost, ran]
  | cons label rest inductionHypothesis =>
      obtain ⟨next, stepped, continued⟩ := run_cons.mp ran
      have here := pays state label next good stepped
      have later := inductionHypothesis (preserved state label next good stepped) continued
      simp only [totalCost, stepped, List.map_cons, List.sum_cons]
      omega

/-! ## Logs -/

/-- What the steps of a run log, up to one that is not enabled. -/
def logged {Event : Type} (step : State → Label → Option State)
    (log : State → Label → List Event) : State → List Label → List Event
  | _, [] => []
  | state, label :: rest =>
      match step state label with
      | some next => log state label ++ logged step log next rest
      | none => []

/-- Invariant rule for a state and the log of the run to it. -/
theorem run_invariant_logged {Event : Type} {log : State → Label → List Event}
    (Inv : State → List Event → Prop)
    (preserved : ∀ state label next past, Inv state past → step state label = some next →
      Inv next (past ++ log state label))
    {state final : State} {past : List Event} {labels : List Label} (start : Inv state past)
    (ran : run step state labels = some final) : Inv final (past ++ logged step log state labels) := by
  induction labels generalizing state past with
  | nil =>
      simp only [run, Option.some.injEq] at ran
      rw [logged, List.append_nil, ← ran]
      exact start
  | cons label rest inductionHypothesis =>
      obtain ⟨next, stepped, continued⟩ := run_cons.mp ran
      have later := inductionHypothesis (preserved state label next past start stepped) continued
      simp only [logged, stepped]
      rwa [List.append_assoc] at later

/-- Accounting rule: where every step from a good state changes a measure by the value of
what it logs, a run changes it by the value of its log. -/
theorem measure_eq_logged {Event Value : Type} [AddMonoid Value]
    {log : State → Label → List Event} (measure : State → Value) (value : Event → Value)
    (Good : State → Prop)
    (accounts : ∀ state label next, Good state → step state label = some next →
      measure next = measure state + ((log state label).map value).sum)
    (preserved : ∀ state label next, Good state → step state label = some next → Good next)
    {state final : State} {labels : List Label} (good : Good state)
    (ran : run step state labels = some final) :
    measure final = measure state + ((logged step log state labels).map value).sum := by
  induction labels generalizing state with
  | nil =>
      simp only [run, Option.some.injEq] at ran
      simp [logged, ran]
  | cons label rest inductionHypothesis =>
      obtain ⟨next, stepped, continued⟩ := run_cons.mp ran
      have here := accounts state label next good stepped
      have later := inductionHypothesis (preserved state label next good stepped) continued
      simp only [logged, stepped, List.map_append, List.sum_append]
      rw [later, here, add_assoc]

end Ferroid.Library.Transition
