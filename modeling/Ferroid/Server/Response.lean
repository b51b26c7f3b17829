import Ferroid.Server.Invariant

/-!
Contract: response streams as their clients see them.

Owns the IDs a client has received, when its stream has ended, when it counts as
truncated, and what the invariant says of a stream that has ended.

Does not own any run.
-/

namespace Ferroid.Server

open Ferroid.Id

/-- The IDs in an item. -/
def Item.ids : Item → List ServerId
  | .chunk packedIds => unpack packedIds
  | .error _ => []

/-- The IDs the client has received, in order. -/
def Call.receivedIds (call : Call) : List ServerId := call.received.flatMap Item.ids

/-- The client has kept its stream and has read it to its end. -/
structure Call.Ended (call : Call) : Prop where
  connected : call.connected = true
  returned : Gone call
  drained : call.resp = []

/-- A stream that ends does so with an error item or with every ID. -/
def Call.NotTruncated (call : Call) : Prop :=
  call.Ended → (∃ error, Item.error error ∈ call.received) ∨
    call.receivedIds.length = call.count

theorem length_flatMap_ids (chunks : List IdChunk) :
    ((chunks.map Item.chunk).flatMap Item.ids).length = (chunks.map chunkIds).sum := by
  rw [List.flatMap_map, List.length_flatMap]
  refine congrArg List.sum (List.map_congr_left fun chunk _ => ?_)
  exact length_unpack chunk

/-- The invariant of a call at the end of its stream. -/
theorem CallOk.complete {config : ServerConfig} {cancelled : Bool} {call : Call}
    (ok : CallOk config cancelled call) (ended : call.Ended) : Complete config call := by
  rcases ended.returned with at_phase | at_phase <;>
  · simp only [CallOk, at_phase] at ok
    exact ok ended.connected

theorem CallOk.notTruncated {config : ServerConfig} {cancelled : Bool} {call : Call}
    (ok : CallOk config cancelled call) : call.NotTruncated := by
  intro ended
  rcases ok.complete ended with ⟨error, member⟩ | ⟨chunks, ⟨items, chunksOk⟩, accounts⟩
  · rw [ended.drained, List.append_nil] at member
    exact Or.inl ⟨error, member⟩
  · rw [ended.drained, List.append_nil] at items
    apply Or.inr
    rw [Call.receivedIds, items, length_flatMap_ids]
    exact accounts.finished.2.1

end Ferroid.Server
