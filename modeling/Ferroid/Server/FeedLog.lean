import Ferroid.Library.Transition
import Ferroid.Server.Coordinator
import Ferroid.Server.Step

/-!
Contract: what a feed task meets and does in a run, as a log.

Owns the log of one task, the world that it describes for a call of `feed_chunks`, and how
far a call comes in every world that has answered so.

Does not own that the task does what the call does (`Server.Feeding`).
-/

namespace Ferroid.Server

open Ferroid.Library

/-! ## Logs of tasks -/

/-- What a feed task does with the rest of the server, and what it is answered. Dispatches
are numbered from zero. -/
inductive FeedEvent where
  | asks (chunkSize : Nat)
  | fails (number : Nat) (error : DispatchError)
  | takes (number : Nat) (chunk : IdChunk)
  | sends (item : Item)
  /-- The client is gone. -/
  | refused
  | returns (result : FeedResult)
deriving DecidableEq, Repr

/-- The events of the next step of a task. -/
def Call.feedEvents (config : ServerConfig) (state : State) (call : Call) : List FeedEvent :=
  match call.phase with
  | .feeding remaining .top =>
      if 0 < remaining then [.asks (min remaining config.idsPerChunk)] else [.returns .ok]
  | .feeding _ (.checking _) =>
      if state.cancelled then [.fails (call.channels - 1) .serviceShutdown] else []
  | .feeding _ (.sending worker _) =>
      if (state.workers worker).isDown then [.fails (call.channels - 1) (.channelError worker)]
      else []
  | .feeding _ (.receiving channel) =>
      match channel.queue with
      | chunk :: _ => [.takes (call.channels - 1) chunk]
      | [] => []
  | .feeding _ (.forwarding _ chunk) =>
      if call.connected then [.sends (.chunk chunk)] else [.refused, .returns .forwardFailed]
  | .feeding _ (.failing error) =>
      if call.connected then [.sends (.error error), .returns (.dispatchFailed error)]
      else [.refused, .returns (.dispatchFailed error)]
  | _ => []

/-- The events of one task in a step of the server. -/
def feedEvents (config : ServerConfig) (index : Nat) (state : State) (label : Label) :
    List FeedEvent :=
  if label = .call index then (state.calls index).feedEvents config state else []

abbrev FeedLog := List FeedEvent

/-- The log of one task in a run. -/
def feedLog (config : ServerConfig) (index : Nat) (labels : List Label) : FeedLog :=
  Transition.logged (step config) (feedEvents config index) (initial config) labels

namespace FeedEvent

def size? : FeedEvent → Option Nat
  | .asks chunkSize => some chunkSize
  | _ => none

def item? : FeedEvent → Option Item
  | .sends item => some item
  | _ => none

def chunk? (number : Nat) : FeedEvent → Option IdChunk
  | .takes number' chunk => if number' = number then some chunk else none
  | _ => none

def error? (number : Nat) : FeedEvent → Option DispatchError
  | .fails number' error => if number' = number then some error else none
  | _ => none

def result? : FeedEvent → Option FeedResult
  | .returns result => some result
  | _ => none

end FeedEvent

namespace FeedLog

/-- The sizes that the task asked for. -/
def requests (log : FeedLog) : List Nat := log.filterMap FeedEvent.size?

/-- The items that it sent. -/
def resp (log : FeedLog) : List Item := log.filterMap FeedEvent.item?

/-- The messages that it took after a dispatch. -/
def messages (log : FeedLog) (number : Nat) : List IdChunk :=
  log.filterMap (FeedEvent.chunk? number)

/-- The error that a dispatch was answered with. -/
def error? (log : FeedLog) (number : Nat) : Option DispatchError :=
  log.findSome? (FeedEvent.error? number)

/-- What the task returned. -/
def result (log : FeedLog) : FeedResult := (log.findSome? FeedEvent.result?).getD .running

/-- What the task met: its dispatches were answered so, and its client was there for every
item, unless one was refused. -/
def world (log : FeedLog) : FeedWorld where
  dispatch number :=
    match log.error? number with
    | some error => .error error
    | none => .ok (log.messages number)
  connected number := decide (number < log.resp.length ∨ .refused ∉ log)

section Append

variable (log events : FeedLog)

@[simp]
theorem requests_append : requests (log ++ events) = log.requests ++ events.requests :=
  List.filterMap_append

@[simp]
theorem resp_append : resp (log ++ events) = log.resp ++ events.resp :=
  List.filterMap_append

@[simp]
theorem messages_append (number : Nat) :
    messages (log ++ events) number = log.messages number ++ events.messages number :=
  List.filterMap_append

@[simp]
theorem error?_append (number : Nat) :
    error? (log ++ events) number = (log.error? number).or (events.error? number) :=
  List.findSome?_append

/-- A task that has not returned returns what it returns now. -/
theorem result_append (running : log.findSome? FeedEvent.result? = none) :
    result (log ++ events) = events.result := by
  rw [result, List.findSome?_append, running, Option.none_or, result]

end Append

end FeedLog

/-! ## Worlds -/

/-- A world that has answered the first dispatches with these messages and taken that many
items. -/
structure FeedWorld.Agrees (world : FeedWorld) (messages : Nat → List IdChunk)
    (dispatches sent : Nat) : Prop where
  dispatch : ∀ number, number < dispatches → world.dispatch number = .ok (messages number)
  connected : ∀ number, number < sent → world.connected number = true

/-- After those answers, the call stands at the head of its loop. -/
structure Reaches (config : ServerConfig) (count : Nat) (messages : Nat → List IdChunk)
    (feed : Feed) : Prop where
  cuts : Cuts config.idsPerChunk count feed.requests feed.remaining
  agrees : ∀ world, FeedWorld.Agrees world messages feed.requests.length feed.resp.length →
    ∀ fuel, feedChunks config world (feed.requests.length + fuel) (.start count) =
      feedChunks config world fuel feed

/-- What the call has done once it has cut the next chunk, and sent some items for it. -/
def Feed.cut (config : ServerConfig) (feed : Feed) (resp : List Item) : Feed :=
  ⟨feed.remaining - min feed.remaining config.idsPerChunk,
    feed.requests ++ [min feed.remaining config.idsPerChunk], resp⟩

section Worlds

variable {config : ServerConfig} {world : FeedWorld} {count : Nat}
  {messages later : Nat → List IdChunk} {feed : Feed}

/-- A client that is there for all of them gets all messages. -/
theorem FeedWorld.forward_all {resp : List Item} {messages : List IdChunk}
    (stays : ∀ number, number < resp.length + messages.length → world.connected number = true) :
    world.forward resp messages = (resp ++ messages.map Item.chunk, true) := by
  induction messages generalizing resp with
  | nil => simp [FeedWorld.forward]
  | cons msg rest inductionHypothesis =>
      have here : world.connected resp.length = true := by
        apply stays
        rw [List.length_cons]
        omega
      rw [FeedWorld.forward, if_pos here, inductionHypothesis]
      · rw [List.map_cons, List.append_assoc, List.singleton_append]
      · intro number before
        apply stays
        simp only [List.length_append, List.length_cons, List.length_nil] at before ⊢
        omega

/-- A client that leaves before the last of them gets the others. -/
theorem FeedWorld.forward_front {resp : List Item} {messages : List IdChunk} {last : IdChunk}
    (stays : ∀ number, number < resp.length + messages.length → world.connected number = true)
    (leaves : world.connected (resp.length + messages.length) = false) :
    world.forward resp (messages ++ [last]) = (resp ++ messages.map Item.chunk, false) := by
  induction messages generalizing resp with
  | nil =>
      rw [List.length_nil, Nat.add_zero] at leaves
      simp [FeedWorld.forward, leaves]
  | cons msg rest inductionHypothesis =>
      have here : world.connected resp.length = true := by
        apply stays
        rw [List.length_cons]
        omega
      have longer : (resp ++ [Item.chunk msg]).length + rest.length =
          resp.length + (msg :: rest).length := by
        simp only [List.length_append, List.length_cons, List.length_nil]
        omega
      rw [List.cons_append, FeedWorld.forward, if_pos here, inductionHypothesis]
      · rw [List.map_cons, List.append_assoc, List.singleton_append]
      · rwa [longer]
      · rwa [longer]

theorem reaches_start (config : ServerConfig) (count : Nat) (messages : Nat → List IdChunk) :
    Reaches config count messages (.start count) where
  cuts := .start
  agrees world _ fuel := congrArg (feedChunks config world · _) (Nat.zero_add fuel)

/-- Messages after later dispatches do not matter. -/
theorem Reaches.congr (reaches : Reaches config count messages feed)
    (same : ∀ number, number < feed.requests.length → later number = messages number) :
    Reaches config count later feed where
  cuts := reaches.cuts
  agrees world agrees fuel := by
    refine reaches.agrees world ⟨fun number before => ?_, agrees.connected⟩ fuel
    rw [agrees.dispatch number before, same number before]

theorem Reaches.remaining_eq (reaches : Reaches config count messages feed) :
    feed.remaining = count - feed.requests.sum := by
  have sum := reaches.cuts.sum
  omega

/-- The next dispatch is answered by messages that the client gets. -/
theorem Reaches.next (reaches : Reaches config count messages feed) (more : 0 < feed.remaining) :
    Reaches config count messages
      (feed.cut config (feed.resp ++ (messages feed.requests.length).map Item.chunk)) where
  cuts := reaches.cuts.cut more
  agrees world agrees fuel := by
    obtain ⟨dispatch, connected⟩ := agrees
    simp only [Feed.cut, List.length_append, List.length_map, List.length_singleton]
      at dispatch connected ⊢
    have earlier : world.Agrees messages feed.requests.length feed.resp.length :=
      ⟨fun number before => dispatch number (by omega), fun number before =>
        connected number (by omega)⟩
    rw [Nat.add_assoc, Nat.add_comm 1 fuel, reaches.agrees world earlier (fuel + 1), feedChunks,
      if_pos more, dispatch feed.requests.length (Nat.lt_succ_self _)]
    simp only [FeedWorld.forward_all connected]

end Worlds

end Ferroid.Server
