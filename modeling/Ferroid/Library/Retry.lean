/-!
Contract: a loop that attempts until it succeeds and waits in between.

Owns the loop with its fuel, the chains of waits it can go through, conditions on
every wait, and the rule that a bound on these chains bounds the loop.

Does not own any concrete attempt or wait.
-/

namespace Ferroid.Library.Retry

variable {State Result Request : Type}

/-- How a loop ends: its result, the state it leaves and what it waited for. -/
structure Finished (State Result Request : Type) where
  result : Result
  state : State
  waited : List Request

/-- At most `fuel` attempts; `none` when none of them gives a result. -/
def retry (attempt : State → State × (Result ⊕ Request)) (wait : Request → State → State) :
    Nat → State → Option (Finished State Result Request)
  | 0, _ => none
  | fuel + 1, state =>
      match attempt state with
      | (after, .inl result) => some ⟨result, after, []⟩
      | (after, .inr request) =>
          (retry attempt wait fuel (wait request after)).map fun finished =>
            { finished with waited := request :: finished.waited }

variable {attempt : State → State × (Result ⊕ Request)} {wait : Request → State → State}

/-- The loop waits for these requests, one after another. -/
inductive Waits (attempt : State → State × (Result ⊕ Request)) (wait : Request → State → State) :
    State → List Request → State → Prop where
  | start (state : State) : Waits attempt wait state [] state
  | next {state after final : State} {request : Request} {rest : List Request}
      (asked : attempt state = (after, .inr request))
      (continued : Waits attempt wait (wait request after) rest final) :
      Waits attempt wait state (request :: rest) final

/-- Every wait of the loop satisfies `Holds`, which sees the state that asks, the
request and the state after the wait. -/
def EveryWait (attempt : State → State × (Result ⊕ Request)) (wait : Request → State → State)
    (Holds : State → Request → State → Prop) (start : State) : Prop :=
  ∀ requests state after request, Waits attempt wait start requests state →
    attempt state = (after, .inr request) → Holds state request (wait request after)

section EveryWait

variable {Holds : State → Request → State → Prop} {state after : State} {request : Request}

/-- A loop that ends at once has no waits. -/
theorem EveryWait.of_done {result : Result} (done : attempt state = (after, .inl result)) :
    EveryWait attempt wait Holds state := by
  intro requests later next other waits asked
  cases waits with
  | start =>
      rw [done] at asked
      cases asked
  | next first =>
      rw [done] at first
      cases first

theorem EveryWait.of_wait (asked : attempt state = (after, .inr request))
    (holds : Holds state request (wait request after))
    (rest : EveryWait attempt wait Holds (wait request after)) :
    EveryWait attempt wait Holds state := by
  intro requests later next other waits askedLater
  cases waits with
  | start =>
      rw [asked] at askedLater
      cases askedLater
      exact holds
  | next first continued =>
      rw [asked] at first
      cases first
      exact rest _ later next other continued askedLater

theorem EveryWait.head (every : EveryWait attempt wait Holds state)
    (asked : attempt state = (after, .inr request)) : Holds state request (wait request after) :=
  every [] state after request (.start state) asked

theorem EveryWait.tail (every : EveryWait attempt wait Holds state)
    (asked : attempt state = (after, .inr request)) :
    EveryWait attempt wait Holds (wait request after) := by
  intro requests later next other waits
  exact every (request :: requests) later next other (.next asked waits)

end EveryWait

/-- The loop runs out of fuel along a chain of as many waits. -/
theorem waits_of_retry_eq_none {fuel : Nat} {state : State}
    (unfinished : retry attempt wait fuel state = none) :
    ∃ requests final, Waits attempt wait state requests final ∧ requests.length = fuel := by
  induction fuel generalizing state with
  | zero => exact ⟨[], state, .start state, rfl⟩
  | succ fuel inductionHypothesis =>
      simp only [retry] at unfinished
      split at unfinished
      · cases unfinished
      · next after request asked =>
          rw [Option.map_eq_none_iff] at unfinished
          obtain ⟨requests, final, waits, length⟩ := inductionHypothesis unfinished
          exact ⟨request :: requests, final, .next asked waits, congrArg Nat.succ length⟩

/-- A result comes from the attempt at the end of the waits that are reported. -/
theorem waits_of_retry_eq_some {fuel : Nat} {state : State}
    {finished : Finished State Result Request}
    (done : retry attempt wait fuel state = some finished) :
    ∃ last, Waits attempt wait state finished.waited last ∧
      attempt last = (finished.state, .inl finished.result) := by
  induction fuel generalizing state finished with
  | zero => cases done
  | succ fuel inductionHypothesis =>
      simp only [retry] at done
      split at done
      · next after result succeeded =>
          cases done
          exact ⟨state, .start state, succeeded⟩
      · next after request asked =>
          obtain ⟨rest, continued, rfl⟩ := Option.map_eq_some_iff.mp done
          obtain ⟨last, waits, succeeded⟩ := inductionHypothesis continued
          exact ⟨last, .next asked waits, succeeded⟩

/-- Where no chain of waits is longer than `bound`, one more attempt than that is
enough for a result. -/
theorem retry_finishes {bound fuel : Nat} {state : State}
    (bounded : ∀ requests final, Waits attempt wait state requests final →
      requests.length ≤ bound) (enough : bound < fuel) :
    ∃ finished last, retry attempt wait fuel state = some finished ∧
      finished.waited.length ≤ bound ∧ Waits attempt wait state finished.waited last ∧
      attempt last = (finished.state, .inl finished.result) := by
  cases outcome : retry attempt wait fuel state with
  | none =>
      obtain ⟨requests, final, waits, length⟩ := waits_of_retry_eq_none outcome
      have short := bounded requests final waits
      omega
  | some finished =>
      obtain ⟨last, waits, succeeded⟩ := waits_of_retry_eq_some outcome
      exact ⟨finished, last, rfl, bounded _ _ waits, waits, succeeded⟩

end Ferroid.Library.Retry
