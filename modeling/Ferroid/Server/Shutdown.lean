import Ferroid.Server.Admission
import Ferroid.Server.Progress
import Ferroid.Server.Wiring

/-!
Contract: what a client can rely on while the server shuts down.

Owns the theorem that no safe run truncates a stream, and the run that shows why
the condition is there.

Does not own streams of a server that is not shutting down (`Server.Streaming`).
-/

namespace Ferroid.Server

open Ferroid.Id
open Ferroid.Generator
open Ferroid.Library

/-! ## Shutdown -/

/-- In a safe run of an accepted configuration, with a shutdown at any moment, no
stream is truncated. While the process runs, a client that keeps its stream can get to its
end, unless its request was pushed after the receiver was dropped, or the permit that its
task holds is good only for such a push or for one that no safe run makes. -/
theorem no_truncation_in_safe_runs (config : ServerConfig) (accepted : config.Accepted)
    (labels : List Label) (state : State)
    (safe : Transition.Meets (step config) (Safe config) (initial config) labels)
    (ran : Transition.run (step config) (initial config) labels = some state) (index : Nat) :
    (state.calls index).NotTruncated ∧
      (0 < config.idsPerChunk → (state.calls index).hasStream = true →
        (state.calls index).connected = true → state.aborted = false →
        ¬ Stranded state index → ¬ Misled config state index → CanEnd config index state) := by
  have checked := accepted.checked
  have inv := Inv.run checked safe ran
  refine ⟨(inv.calls index).notTruncated,
    fun positive stream connected alive reachable led => ?_⟩
  have live : Live config state.shutdown (state.calls index) := by
    cases at_phase : (state.calls index).phase with
    | feeding | returned | done => simp [Live, at_phase]
    | _ => simp [Call.hasStream, at_phase] at stream
  have servable : Servable config index state :=
    ⟨inv, (Wired.run checked ran).permitted, Owned.run checked safe ran, alive, reachable, led,
      live, connected⟩
  exact servable.canEnd checked positive (opens_of_hasStream ran stream).1

/-- A stream of two IDs that a shutdown interrupts between its requests. -/
def interruptedRun : List Label :=
  List.flatten [[.arrive 2], List.replicate 8 (.call 0), List.replicate 6 (.work 0 5#_),
    List.replicate 4 (.manage true), List.replicate 6 (.call 0), List.replicate 2 (.receive 0)]

/-- The client gets one chunk and then an error. -/
theorem no_truncation_in_safe_runs_interrupted :
    ∃ state, Transition.run (step (nodeAt 0)) (initial (nodeAt 0)) interruptedRun = some state ∧
      (state.calls 0).Ended ∧ (state.calls 0).NotTruncated := by
  have safe : Transition.Meets (step (nodeAt 0)) (Safe (nodeAt 0)) (initial (nodeAt 0))
      interruptedRun := by
    decide +kernel
  have observed : (Transition.run (step (nodeAt 0)) (initial (nodeAt 0)) interruptedRun).map
      (fun state => ((state.calls 0).connected, (state.calls 0).phase, (state.calls 0).resp)) =
        some (true, .returned, []) := by
    decide +kernel
  obtain ⟨state, ran, seen⟩ := Option.map_eq_some_iff.mp observed
  simp only [Prod.mk.injEq] at seen
  exact ⟨state, ran, ⟨seen.1, Or.inl seen.2.1, seen.2.2⟩,
    (no_truncation_in_safe_runs (nodeAt 0) nodeAt_zero_accepted interruptedRun state safe ran 0).1⟩

/-- The last request of a stream reaches a worker that has taken `Shutdown`: the
token was read before it was cancelled, and the worker goes away with the request. -/
def truncatedRun : List Label :=
  List.flatten [[.arrive 1], List.replicate 6 (.call 0), List.replicate 4 (.manage true),
    List.replicate 2 (.work 0 5#_), [.call 0, .call 0, .work 0 5#_], List.replicate 3 (.call 0)]

/-- A stream of one ID ends with none and without an error. -/
theorem truncation_at_shutdown :
    ∃ config labels state, config.Accepted ∧
      Transition.run (step config) (initial config) labels = some state ∧
      ¬ (state.calls 0).NotTruncated := by
  have observed : (Transition.run (step (nodeAt 0)) (initial (nodeAt 0)) truncatedRun).map
      (fun state => state.calls 0) = some ⟨1, .done, 1, true, [], []⟩ := by
    decide +kernel
  obtain ⟨state, ran, seen⟩ := Option.map_eq_some_iff.mp observed
  refine ⟨nodeAt 0, truncatedRun, state, nodeAt_zero_accepted, ran, fun notTruncated => ?_⟩
  rw [seen] at notTruncated
  rcases notTruncated ⟨rfl, Or.inr rfl, rfl⟩ with ⟨_, member⟩ | all
  · cases member
  · cases all

end Ferroid.Server
