import Ferroid.Library.Transition
import Ferroid.Server.FeedLog
import Ferroid.Server.Inflight

/-!
Contract: the feed tasks of the server are calls of `feed_chunks`.

Owns the refinement between the two models of the loop: the task that the server runs step
by step among all others, and the call that runs by itself over what it meets. The call that
meets what the log of a task says does what the task did.

Does not own either model (`Server.Step`, `Server.Coordinator`), or the log
(`Server.FeedLog`).
-/

namespace Ferroid.Server

open Ferroid.Library

/-! ## The calls -/

/-- A call of `feed_chunks` that meets what the task met does what the task did. -/
structure Call.CallsFeedChunks (config : ServerConfig) (call : Call) (log : FeedLog) : Prop where
  called : feedChunks config log.world log.requests.length (.start call.count) =
    (⟨call.count - log.requests.sum, log.requests, log.resp⟩, log.result)
  returned : log.result ≠ .running
  dispatched : log.requests.length = call.channels
  complete : log.result = .ok → 1 ≤ config.idsPerChunk →
    log.requests.sum = call.count ∧
      log.requests.length = chunksFor config.idsPerChunk call.count
  taken : call.received <+: log.resp
  /-- A client that is there was there for every item. -/
  waiting : call.connected = true → call.received ++ call.resp = log.resp ∧ .refused ∉ log
  lost : call.connected = true → log.result ≠ .forwardFailed
  told : call.connected = true → ∀ error, log.result = .dispatchFailed error →
    log.resp.getLast? = some (.error error)

/-! ## The invariant -/

/-- The items a task has sent: its client has taken some of them, and the others wait while
it is there. -/
structure Call.Sent (call : Call) (items : List Item) : Prop where
  taken : call.received <+: items
  waiting : call.connected = true → call.received ++ call.resp = items

/-- The log of a task that has not returned. -/
structure Call.Logged (call : Call) (log : FeedLog) : Prop where
  dispatched : log.requests.length = call.channels
  running : log.findSome? FeedEvent.result? = none
  there : .refused ∉ log
  sent : call.Sent log.resp
  fresh : ∀ number, call.channels ≤ number →
    log.messages number = [] ∧ log.error? number = none

/-- The task is in an iteration of the call: of the messages of this dispatch it has passed
on some and holds some, or the dispatch has failed. -/
structure Iterates (config : ServerConfig) (count remaining : Nat) (log : FeedLog) (feed : Feed)
    (passed held : List IdChunk) (error : Option DispatchError) : Prop where
  reaches : Reaches config count log.messages feed
  more : 0 < feed.remaining
  left : feed.remaining - min feed.remaining config.idsPerChunk = remaining
  requests : log.requests = feed.requests ++ [min feed.remaining config.idsPerChunk]
  resp : log.resp = feed.resp ++ passed.map Item.chunk
  messages : log.messages feed.requests.length = passed ++ held
  error : log.error? feed.requests.length = error
  earlier : ∀ number, number < feed.requests.length → log.error? number = none

/-- Where a task stands in its call. -/
def StageFeeds (config : ServerConfig) (count remaining : Nat) (log : FeedLog) : Stage → Prop
  | .top =>
      Reaches config count log.messages ⟨remaining, log.requests, log.resp⟩ ∧
        ∀ number, number < log.requests.length → log.error? number = none
  | .checking _ | .picking _ | .sending _ _ | .pushing _ _ =>
      ∃ feed, Iterates config count remaining log feed [] [] none
  | .failing error => ∃ feed, Iterates config count remaining log feed [] [] (some error)
  | .receiving _ => ∃ feed passed, Iterates config count remaining log feed passed [] none
  | .forwarding _ chunk =>
      ∃ feed passed, Iterates config count remaining log feed passed [chunk] none

/-- A call at every phase, with the log of its task. -/
def Call.Feeds (config : ServerConfig) (call : Call) (log : FeedLog) : Prop :=
  match call.phase with
  | .absent | .arrived | .checked | .counted =>
      log = [] ∧ call.channels = 0 ∧ call.received = [] ∧ call.resp = []
  | .rejected _ | .panicked => True
  | .feeding remaining stage => call.Logged log ∧ StageFeeds config call.count remaining log stage
  | .returned | .done => call.CallsFeedChunks config log

section Logs

variable {config : ServerConfig} {call after : Call} {log events : FeedLog} {feed : Feed}
  {passed held : List IdChunk} {error : Option DispatchError} {count remaining : Nat}

theorem Call.Logged.rephase (logged : call.Logged log) (phase : CallPhase) :
    ({ call with phase := phase } : Call).Logged log :=
  ⟨logged.dispatched, logged.running, logged.there, ⟨logged.sent.taken, logged.sent.waiting⟩,
    logged.fresh⟩

/-- The task goes on with one event. -/
theorem Call.Logged.note (logged : call.Logged log) {event : FeedEvent}
    (runs : event.result? = none ∧ event ≠ .refused)
    (dispatched : log.requests.length + (FeedLog.requests [event]).length = after.channels)
    (sent : after.Sent (log.resp ++ FeedLog.resp [event]))
    (fresh : ∀ number, after.channels ≤ number →
      FeedLog.messages [event] number = [] ∧ FeedLog.error? [event] number = none) :
    after.Logged (log ++ [event]) where
  dispatched := by rw [FeedLog.requests_append, List.length_append, dispatched]
  running := by
    rw [List.findSome?_append, logged.running, Option.none_or, List.findSome?_cons, runs.1]
    rfl
  there member := by
    rcases List.mem_append.mp member with earlier | last
    · exact logged.there earlier
    · exact runs.2 (List.mem_singleton.mp last).symm
  sent := by rwa [FeedLog.resp_append]
  fresh number beyond := by
    have before := logged.fresh number (by have channels := logged.dispatched; omega)
    obtain ⟨messages, error⟩ := fresh number beyond
    rw [FeedLog.messages_append, FeedLog.error?_append, before.1, before.2, messages, error]
    exact ⟨rfl, rfl⟩

/-- The task goes on with an event that asks for nothing and sends nothing. -/
theorem Call.Logged.noteQuiet (logged : call.Logged log) (phase : CallPhase) {event : FeedEvent}
    (runs : event.result? = none ∧ event ≠ .refused)
    (quiet : FeedLog.requests [event] = [] ∧ FeedLog.resp [event] = [])
    (fresh : ∀ number, call.channels ≤ number →
      FeedLog.messages [event] number = [] ∧ FeedLog.error? [event] number = none) :
    ({ call with phase := phase } : Call).Logged (log ++ [event]) := by
  refine logged.note runs ?_ ?_ fresh
  · rw [quiet.1]
    exact logged.dispatched
  · rw [quiet.2, List.append_nil]
    exact ⟨logged.sent.taken, logged.sent.waiting⟩

theorem Call.Logged.noteFails (logged : call.Logged log) {number : Nat}
    (channels : call.channels = number + 1) (phase : CallPhase) (error : DispatchError) :
    ({ call with phase := phase } : Call).Logged (log ++ [.fails number error]) := by
  refine logged.noteQuiet phase ⟨rfl, FeedEvent.noConfusion⟩ ⟨rfl, rfl⟩ fun later beyond => ?_
  have other : number ≠ later := by omega
  exact ⟨rfl, by simp [FeedLog.error?, FeedEvent.error?, other]⟩

theorem Call.Logged.noteTakes (logged : call.Logged log) {number : Nat}
    (channels : call.channels = number + 1) (phase : CallPhase) (chunk : IdChunk) :
    ({ call with phase := phase } : Call).Logged (log ++ [.takes number chunk]) := by
  refine logged.noteQuiet phase ⟨rfl, FeedEvent.noConfusion⟩ ⟨rfl, rfl⟩ fun later beyond => ?_
  have other : number ≠ later := by omega
  exact ⟨by simp [FeedLog.messages, FeedEvent.chunk?, other], rfl⟩

/-- One more item is sent to a client that is there. -/
theorem Call.Sent.append {items : List Item} (sent : call.Sent items)
    (connected : call.connected = true) {item : Item} (received : after.received = call.received)
    (resp : after.resp = call.resp ++ [item]) : after.Sent (items ++ [item]) where
  taken := by
    rw [received]
    exact sent.taken.trans (List.prefix_append _ _)
  waiting _ := by
    rw [received, resp, ← List.append_assoc, sent.waiting connected]

/-- The next chunk is cut. -/
theorem Reaches.iterates (reaches : Reaches config count log.messages feed)
    (requests : log.requests = feed.requests) (resp : log.resp = feed.resp)
    (more : 0 < feed.remaining)
    (fresh : log.messages feed.requests.length = [] ∧ log.error? feed.requests.length = none)
    (earlier : ∀ number, number < feed.requests.length → log.error? number = none) :
    Iterates config count (feed.remaining - min feed.remaining config.idsPerChunk)
      (log ++ [.asks (min feed.remaining config.idsPerChunk)]) feed [] [] none where
  reaches := reaches.congr fun number _ => by
    rw [FeedLog.messages_append]
    exact List.append_nil _
  more := more
  left := rfl
  requests := by
    rw [FeedLog.requests_append, requests]
    rfl
  resp := by
    rw [FeedLog.resp_append, resp]
    rfl
  messages := by
    rw [FeedLog.messages_append, fresh.1]
    rfl
  error := by
    rw [FeedLog.error?_append, fresh.2]
    rfl
  earlier number before := by
    rw [FeedLog.error?_append, earlier number before]
    rfl

namespace Iterates

/-- The number of the dispatch. -/
theorem number_eq (iterates : Iterates config call.count remaining log feed passed held error)
    (logged : call.Logged log) : call.channels = feed.requests.length + 1 := by
  rw [← logged.dispatched, iterates.requests, List.length_append, List.length_singleton]

/-- The task goes on with one event of this dispatch. -/
theorem note (iterates : Iterates config count remaining log feed passed held error)
    {event : FeedEvent} {passed' held' : List IdChunk} {error' : Option DispatchError}
    (requests : FeedLog.requests [event] = [])
    (earlier : ∀ number, number ≠ feed.requests.length →
      FeedLog.messages [event] number = [] ∧ FeedLog.error? [event] number = none)
    (resp : passed.map Item.chunk ++ FeedLog.resp [event] = passed'.map Item.chunk)
    (messages : passed ++ held ++ FeedLog.messages [event] feed.requests.length = passed' ++ held')
    (error : error.or (FeedLog.error? [event] feed.requests.length) = error') :
    Iterates config count remaining (log ++ [event]) feed passed' held' error' where
  reaches := iterates.reaches.congr fun number before => by
    rw [FeedLog.messages_append, (earlier number (Nat.ne_of_lt before)).1, List.append_nil]
  more := iterates.more
  left := iterates.left
  requests := by rw [FeedLog.requests_append, iterates.requests, requests, List.append_nil]
  resp := by rw [FeedLog.resp_append, iterates.resp, List.append_assoc, resp]
  messages := by rw [FeedLog.messages_append, iterates.messages, messages]
  error := by rw [FeedLog.error?_append, iterates.error, error]
  earlier number before := by
    rw [FeedLog.error?_append, iterates.earlier number before,
      (earlier number (Nat.ne_of_lt before)).2]
    rfl

/-- A message of this dispatch is taken. -/
theorem take (iterates : Iterates config count remaining log feed passed [] none)
    (chunk : IdChunk) :
    Iterates config count remaining (log ++ [.takes feed.requests.length chunk]) feed passed
      [chunk] none := by
  refine iterates.note rfl (fun number other => ⟨?_, rfl⟩) (List.append_nil _) ?_ rfl
  · simp [FeedLog.messages, FeedEvent.chunk?, Ne.symm other]
  · simp [FeedLog.messages, FeedEvent.chunk?]

/-- The message that the task holds is passed on. -/
theorem forward {chunk : IdChunk}
    (iterates : Iterates config count remaining log feed passed [chunk] none) :
    Iterates config count remaining (log ++ [.sends (.chunk chunk)]) feed (passed ++ [chunk]) []
      none := by
  refine iterates.note rfl (fun _ _ => ⟨rfl, rfl⟩) ?_ rfl rfl
  rw [List.map_append]
  rfl

/-- The dispatch fails. -/
theorem fail (iterates : Iterates config count remaining log feed [] [] none)
    (error : DispatchError) :
    Iterates config count remaining (log ++ [.fails feed.requests.length error]) feed [] []
      (some error) := by
  refine iterates.note rfl (fun number other => ⟨rfl, ?_⟩) rfl rfl ?_
  · simp [FeedLog.error?, FeedEvent.error?, Ne.symm other]
  · simp [FeedLog.error?, FeedEvent.error?]

/-- The chunk channel is closed, and all its messages are passed on. -/
theorem drain (iterates : Iterates config count remaining log feed passed [] none) :
    StageFeeds config count remaining log .top := by
  have next := iterates.reaches.next iterates.more
  rw [iterates.messages, List.append_nil, ← iterates.resp] at next
  refine ⟨?_, fun number before => ?_⟩
  · rw [iterates.requests, ← iterates.left]
    exact next
  · rw [iterates.requests, List.length_append, List.length_singleton] at before
    rcases Nat.lt_succ_iff_lt_or_eq.mp before with earlier | last
    · exact iterates.earlier number earlier
    · rw [last]
      exact iterates.error

/-- The dispatch is answered with an error. -/
theorem failing (iterates : Iterates config call.count remaining log feed [] [] none)
    (logged : call.Logged log) (error : DispatchError) :
    ({ call with phase := .feeding remaining (.failing error) } : Call).Feeds config
      (log ++ [.fails (call.channels - 1) error]) := by
  have number := iterates.number_eq logged
  have last : call.channels - 1 = feed.requests.length := Nat.sub_eq_of_eq_add number
  rw [last]
  exact ⟨logged.noteFails number _ error, feed, iterates.fail error⟩

/-- A message comes for the dispatch. -/
theorem taking (iterates : Iterates config call.count remaining log feed passed [] none)
    (logged : call.Logged log) (chunk : IdChunk) (channel : ChunkChannel) :
    ({ call with phase := .feeding remaining (.forwarding channel chunk) } : Call).Feeds config
      (log ++ [.takes (call.channels - 1) chunk]) := by
  have number := iterates.number_eq logged
  have last : call.channels - 1 = feed.requests.length := Nat.sub_eq_of_eq_add number
  rw [last]
  exact ⟨logged.noteTakes number _ chunk, feed, passed, iterates.take chunk⟩

end Iterates

/-- A task starts with nothing asked for and nothing sent. -/
theorem feeds_start (config : ServerConfig) (call : Call) (channels : call.channels = 0)
    (received : call.received = []) (resp : call.resp = []) :
    ({ call with phase := .feeding call.count .top } : Call).Feeds config [] := by
  refine ⟨⟨channels.symm, rfl, List.not_mem_nil, ⟨?_, fun _ => ?_⟩, fun _ _ => ⟨rfl, rfl⟩⟩,
    reaches_start config call.count _, fun _ before => absurd before (Nat.not_lt_zero _)⟩
  · show call.received <+: []
    rw [received]
  · show call.received ++ call.resp = []
    rw [received, resp]
    rfl

/-- The task cuts its next chunk and opens a chunk channel. -/
theorem Call.Logged.cut (logged : call.Logged log)
    (feeds : StageFeeds config call.count remaining log .top) (more : 0 < remaining) :
    ({ call with
      phase := .feeding (remaining - min remaining config.idsPerChunk)
        (.checking (min remaining config.idsPerChunk))
      channels := call.channels + 1 } : Call).Feeds config
        (log ++ [.asks (min remaining config.idsPerChunk)]) := by
  obtain ⟨reaches, answered⟩ := feeds
  have fresh := logged.fresh log.requests.length (Nat.le_of_eq logged.dispatched.symm)
  refine ⟨logged.note ⟨rfl, FeedEvent.noConfusion⟩ (congrArg (· + 1) logged.dispatched) ?_
    fun _ _ => ⟨rfl, rfl⟩, _, reaches.iterates rfl rfl more fresh answered⟩
  show Call.Sent _ (log.resp ++ [])
  rw [List.append_nil]
  exact ⟨logged.sent.taken, logged.sent.waiting⟩

end Logs

/-! ## The ends of a call -/

section Ends

variable {config : ServerConfig} {call after : Call} {log events : FeedLog} {feed : Feed}
  {passed held : List IdChunk} {error : Option DispatchError} {remaining : Nat}

/-- The world that a log describes has answered what the log says. -/
theorem FeedLog.agrees_world (log : FeedLog) {dispatches sent : Nat}
    (answered : ∀ number, number < dispatches → log.error? number = none)
    (few : sent ≤ log.resp.length) : log.world.Agrees log.messages dispatches sent where
  dispatch number before := by simp only [FeedLog.world, answered number before]
  connected number before := decide_eq_true (Or.inl (Nat.lt_of_lt_of_le before few))

/-- The task stops asking: these are the last things it does. -/
structure FeedLog.Last (events : FeedLog) (result : FeedResult) : Prop where
  requests : events.requests = []
  messages : ∀ number, events.messages number = []
  error : ∀ number, events.error? number = none
  result : events.result = result

section Last

variable {result : FeedResult} (last : FeedLog.Last events result)

include last

theorem FeedLog.Last.requests_append (log : FeedLog) :
    FeedLog.requests (log ++ events) = log.requests := by
  rw [FeedLog.requests_append, last.requests, List.append_nil]

theorem FeedLog.Last.messages_append (log : FeedLog) (number : Nat) :
    FeedLog.messages (log ++ events) number = log.messages number := by
  rw [FeedLog.messages_append, last.messages, List.append_nil]

theorem FeedLog.Last.error?_append (log : FeedLog) (number : Nat) :
    FeedLog.error? (log ++ events) number = log.error? number := by
  rw [FeedLog.error?_append, last.error, Option.or_none]

/-- The call that meets all this comes as far as the task has come. -/
theorem FeedLog.Last.reaches (reaches : Reaches config call.count log.messages feed)
    (answered : ∀ number, number < feed.requests.length → log.error? number = none)
    (few : feed.resp.length ≤ (FeedLog.resp (log ++ events)).length) (fuel : Nat) :
    feedChunks config (FeedLog.world (log ++ events)) (feed.requests.length + fuel)
        (.start call.count) =
      feedChunks config (FeedLog.world (log ++ events)) fuel feed := by
  have still : Reaches config call.count (FeedLog.messages (log ++ events)) feed :=
    reaches.congr fun number _ => last.messages_append log number
  apply still.agrees
  apply FeedLog.agrees_world _ _ few
  intro number before
  rw [last.error?_append, answered number before]

end Last

/-- Nothing remains. -/
theorem Call.Logged.completes (logged : call.Logged log)
    (feeds : StageFeeds config call.count 0 log .top) :
    ({ call with phase := .returned } : Call).CallsFeedChunks config (log ++ [.returns .ok]) := by
  obtain ⟨reaches, answered⟩ := feeds
  have last : FeedLog.Last [.returns .ok] .ok := ⟨rfl, fun _ => rfl, fun _ => rfl, rfl⟩
  have resp : FeedLog.resp (log ++ [.returns .ok]) = log.resp := by
    rw [FeedLog.resp_append]
    exact List.append_nil _
  have result : FeedLog.result (log ++ [.returns .ok]) = .ok :=
    (FeedLog.result_append log _ logged.running).trans last.result
  have requests := last.requests_append log
  have called := last.reaches reaches answered (Nat.le_of_eq (congrArg List.length resp.symm)) 0
  refine ⟨?_, ?_, ?_, fun _ positive => ?_, ?_, fun connected => ⟨?_, ?_⟩, ?_, ?_⟩
  · have nothing : call.count - log.requests.sum = 0 := reaches.remaining_eq.symm
    rw [requests, resp, result, nothing]
    exact called.trans (feedChunks_done rfl 0)
  · rw [result]
    exact FeedResult.noConfusion
  · rw [requests]
    exact logged.dispatched
  · have accounts : Accounts config.idsPerChunk call.count log.requests 0 := by
      rw [Accounts, if_neg (Nat.ne_of_gt positive)]
      exact reaches.cuts
    rw [requests]
    exact ⟨accounts.finished.2.1, accounts.finished.2.2.2⟩
  · rw [resp]
    exact logged.sent.taken
  · rw [resp]
    exact logged.sent.waiting connected
  · simp [logged.there]
  · intro _
    rw [result]
    exact FeedResult.noConfusion
  · intro _ error failed
    rw [result] at failed
    cases failed

/-- The task returns from an iteration. -/
theorem Iterates.returns {result : FeedResult}
    (iterates : Iterates config call.count remaining log feed passed held error)
    (logged : call.Logged log) (last : FeedLog.Last events result)
    (count : after.count = call.count) (channels : after.channels = call.channels)
    (called : feedChunks config (FeedLog.world (log ++ events)) 1 feed =
      (feed.cut config (FeedLog.resp (log ++ events)), result))
    (failed : result ≠ .running ∧ result ≠ .ok)
    (sent : after.Sent (FeedLog.resp (log ++ events)))
    (there : after.connected = true → .refused ∉ events ∧ result ≠ .forwardFailed ∧
      ∀ error, result = .dispatchFailed error →
        (FeedLog.resp (log ++ events)).getLast? = some (.error error)) :
    after.CallsFeedChunks config (log ++ events) := by
  have isResult : FeedLog.result (log ++ events) = result :=
    (FeedLog.result_append log _ logged.running).trans last.result
  have requests := last.requests_append log
  have few : feed.resp.length ≤ (FeedLog.resp (log ++ events)).length := by
    rw [FeedLog.resp_append, iterates.resp, List.length_append, List.length_append]
    omega
  have sum := (iterates.reaches.cuts.cut iterates.more).sum
  refine ⟨?_, ?_, ?_, fun isOk => ?_, sent.taken, fun connected => ⟨?_, ?_⟩,
    fun connected => ?_, fun connected => ?_⟩
  · have left : feed.remaining - min feed.remaining config.idsPerChunk =
        call.count - (feed.requests ++ [min feed.remaining config.idsPerChunk]).sum := by
      omega
    rw [requests, iterates.requests, count, isResult, ← left, List.length_append,
      List.length_singleton]
    exact (last.reaches iterates.reaches iterates.earlier few 1).trans called
  · rw [isResult]
    exact failed.1
  · rw [requests, channels]
    exact logged.dispatched
  · exact absurd (isResult.symm.trans isOk) failed.2
  · exact sent.waiting connected
  · rw [List.mem_append, not_or]
    exact ⟨logged.there, (there connected).1⟩
  · rw [isResult]
    exact (there connected).2.1
  · rw [isResult]
    exact (there connected).2.2

/-- The dispatch has failed, and its error goes to a client that is there. -/
theorem Iterates.tells {error : DispatchError}
    (iterates : Iterates config call.count remaining log feed [] [] (some error))
    (logged : call.Logged log) (connected : call.connected = true) :
    ({ call with phase := .returned, resp := call.resp ++ [.error error] } : Call).CallsFeedChunks
      config (log ++ [.sends (.error error), .returns (.dispatchFailed error)]) := by
  have last : FeedLog.Last [.sends (.error error), .returns (.dispatchFailed error)]
      (.dispatchFailed error) := ⟨rfl, fun _ => rfl, fun _ => rfl, rfl⟩
  have resp : FeedLog.resp (log ++ [.sends (.error error), .returns (.dispatchFailed error)]) =
      feed.resp ++ [.error error] := by
    rw [FeedLog.resp_append, iterates.resp, List.map_nil, List.append_nil]
    rfl
  refine iterates.returns logged last rfl rfl ?_ ⟨FeedResult.noConfusion, FeedResult.noConfusion⟩
    ?_ fun _ => ⟨by simp, FeedResult.noConfusion, fun other isError => ?_⟩
  · have answered : (FeedLog.world (log ++
        [.sends (.error error), .returns (.dispatchFailed error)])).dispatch
          feed.requests.length = .error error := by
      simp only [FeedLog.world, last.error?_append, iterates.error]
    have there : (FeedLog.world (log ++
        [.sends (.error error), .returns (.dispatchFailed error)])).connected
          feed.resp.length = true := by
      simp [FeedLog.world, resp]
    rw [feedChunks, if_pos iterates.more, answered, resp]
    simp only [there, if_true]
    rfl
  · rw [resp]
    have sent := logged.sent
    rw [iterates.resp, List.map_nil, List.append_nil] at sent
    exact sent.append connected rfl rfl
  · cases isError
    rw [resp, List.getLast?_append]
    rfl

/-- The dispatch has failed, and the client is gone. -/
theorem Iterates.tellsNobody {error : DispatchError}
    (iterates : Iterates config call.count remaining log feed [] [] (some error))
    (logged : call.Logged log) (gone : call.connected = false) :
    ({ call with phase := .returned } : Call).CallsFeedChunks config
      (log ++ [.refused, .returns (.dispatchFailed error)]) := by
  have last : FeedLog.Last [.refused, .returns (.dispatchFailed error)]
      (.dispatchFailed error) := ⟨rfl, fun _ => rfl, fun _ => rfl, rfl⟩
  have resp : FeedLog.resp (log ++ [.refused, .returns (.dispatchFailed error)]) = feed.resp := by
    rw [FeedLog.resp_append, iterates.resp, List.map_nil, List.append_nil]
    exact List.append_nil _
  refine iterates.returns logged last rfl rfl ?_ ⟨FeedResult.noConfusion, FeedResult.noConfusion⟩
    ?_ fun connected => ?_
  · have answered : (FeedLog.world (log ++
        [.refused, .returns (.dispatchFailed error)])).dispatch feed.requests.length =
          .error error := by
      simp only [FeedLog.world, last.error?_append, iterates.error]
    have there : (FeedLog.world (log ++
        [.refused, .returns (.dispatchFailed error)])).connected feed.resp.length = false := by
      simp [FeedLog.world, resp]
    rw [feedChunks, if_pos iterates.more, answered, resp]
    simp only [there]
    rfl
  · rw [resp]
    have sent := logged.sent
    rw [iterates.resp, List.map_nil, List.append_nil] at sent
    exact ⟨sent.taken, sent.waiting⟩
  · rw [gone] at connected
    cases connected

/-- The client is gone when a message is to be passed on. -/
theorem Iterates.loses {chunk : IdChunk}
    (iterates : Iterates config call.count remaining log feed passed [chunk] none)
    (logged : call.Logged log) (gone : call.connected = false) :
    ({ call with phase := .returned } : Call).CallsFeedChunks config
      (log ++ [.refused, .returns .forwardFailed]) := by
  have last : FeedLog.Last [.refused, .returns .forwardFailed] .forwardFailed :=
    ⟨rfl, fun _ => rfl, fun _ => rfl, rfl⟩
  have resp : FeedLog.resp (log ++ [.refused, .returns .forwardFailed]) =
      feed.resp ++ passed.map Item.chunk := by
    rw [FeedLog.resp_append, iterates.resp]
    exact List.append_nil _
  refine iterates.returns logged last rfl rfl ?_ ⟨FeedResult.noConfusion, FeedResult.noConfusion⟩
    ?_ fun connected => ?_
  · have answered : (FeedLog.world (log ++ [.refused, .returns .forwardFailed])).dispatch
        feed.requests.length = .ok (passed ++ [chunk]) := by
      simp only [FeedLog.world, last.error?_append, iterates.error, last.messages_append,
        iterates.messages]
    have forwarded : (FeedLog.world (log ++ [.refused, .returns .forwardFailed])).forward
        feed.resp (passed ++ [chunk]) = (feed.resp ++ passed.map Item.chunk, false) := by
      apply FeedWorld.forward_front
      · intro number before
        apply decide_eq_true
        rw [resp, List.length_append, List.length_map]
        exact Or.inl before
      · apply decide_eq_false
        rw [resp, List.length_append, List.length_map]
        simp
    rw [feedChunks, if_pos iterates.more, answered, resp]
    simp only [forwarded]
    rfl
  · rw [resp, ← iterates.resp]
    exact ⟨logged.sent.taken, logged.sent.waiting⟩
  · rw [gone] at connected
    cases connected

/-- What the client does afterwards changes nothing about it. -/
theorem Call.CallsFeedChunks.client (calls : call.CallsFeedChunks config log)
    (count : after.count = call.count) (channels : after.channels = call.channels)
    (connected : after.connected = true → call.connected = true)
    (sent : ∀ items, call.Sent items → after.Sent items) : after.CallsFeedChunks config log := by
  have isSent := sent log.resp ⟨calls.taken, fun connected => (calls.waiting connected).1⟩
  refine ⟨by rw [count]; exact calls.called, calls.returned,
    by rw [channels]; exact calls.dispatched,
    by rw [count]; exact calls.complete, isSent.taken, fun still => ⟨isSent.waiting still, ?_⟩,
    fun still => calls.lost (connected still), fun still => calls.told (connected still)⟩
  exact (calls.waiting (connected still)).2

end Ends

/-! ## Steps -/

section Steps

variable {config : ServerConfig} {state next : State} {log : FeedLog}

theorem CallMoves.feeds {call after : Call} {inflight : BitVec 64} {nextWorker : Nat}
    (moves : CallMoves config state call after inflight nextWorker)
    (feeds : call.Feeds config log) :
    after.Feeds config (log ++ call.feedEvents config state) := by
  cases moves with
  | refuse | zero | tooMany | burst => trivial
  | check at_phase | count at_phase =>
      simp only [Call.Feeds, at_phase] at feeds
      simp only [Call.feedEvents, at_phase, List.append_nil]
      exact feeds
  | spawn at_phase capacity =>
      simp only [Call.Feeds, at_phase] at feeds
      obtain ⟨rfl, channels, received, resp⟩ := feeds
      simp only [Call.feedEvents, at_phase, List.append_nil]
      exact feeds_start config call channels received resp
  | cut remaining at_phase more =>
      simp only [Call.Feeds, at_phase] at feeds
      simp only [Call.feedEvents, at_phase, if_pos more]
      exact feeds.1.cut feeds.2 more
  | complete at_phase =>
      simp only [Call.Feeds, at_phase] at feeds
      simp only [Call.feedEvents, at_phase, Nat.lt_irrefl, if_false]
      exact feeds.1.completes feeds.2
  | cancelled remaining chunkSize at_phase cancelled =>
      simp only [Call.Feeds, at_phase] at feeds
      obtain ⟨logged, feed, iterates⟩ := feeds
      simp only [Call.feedEvents, at_phase, cancelled, if_true]
      exact iterates.failing logged _
  | down remaining worker chunkSize at_phase down =>
      simp only [Call.Feeds, at_phase] at feeds
      obtain ⟨logged, feed, iterates⟩ := feeds
      simp only [Call.feedEvents, at_phase, down, if_true]
      exact iterates.failing logged _
  | proceed remaining chunkSize at_phase running =>
      simp only [Call.Feeds, at_phase] at feeds
      simp only [Call.feedEvents, at_phase, running, Bool.false_eq_true, if_false, List.append_nil]
      exact ⟨feeds.1.rephase _, feeds.2⟩
  | pick remaining chunkSize at_phase =>
      simp only [Call.Feeds, at_phase] at feeds
      simp only [Call.feedEvents, at_phase, List.append_nil]
      exact ⟨feeds.1.rephase _, feeds.2⟩
  | take remaining channel chunk queue at_phase waiting =>
      simp only [Call.Feeds, at_phase] at feeds
      obtain ⟨logged, feed, passed, iterates⟩ := feeds
      simp only [Call.feedEvents, at_phase, waiting]
      exact iterates.taking logged chunk _
  | drained remaining channel at_phase empty dropped =>
      simp only [Call.Feeds, at_phase] at feeds
      obtain ⟨logged, feed, passed, iterates⟩ := feeds
      simp only [Call.feedEvents, at_phase, empty, List.append_nil]
      exact ⟨logged.rephase _, iterates.drain⟩
  | forward remaining channel chunk at_phase connected room =>
      simp only [Call.Feeds, at_phase] at feeds
      obtain ⟨logged, feed, passed, iterates⟩ := feeds
      have events : call.feedEvents config state = [.sends (.chunk chunk)] := by
        simp only [Call.feedEvents, at_phase, connected, if_true]
      rw [events]
      exact ⟨logged.note ⟨rfl, FeedEvent.noConfusion⟩ logged.dispatched
        (logged.sent.append connected rfl rfl) fun _ _ => ⟨rfl, rfl⟩, feed, _, iterates.forward⟩
  | fail remaining error at_phase connected room =>
      simp only [Call.Feeds, at_phase] at feeds
      obtain ⟨logged, feed, iterates⟩ := feeds
      have events : call.feedEvents config state =
          [.sends (.error error), .returns (.dispatchFailed error)] := by
        simp only [Call.feedEvents, at_phase, connected, if_true]
      rw [events]
      exact iterates.tells logged connected
  | giveUp remaining stage at_phase sending gone =>
      simp only [Call.Feeds, at_phase] at feeds
      rcases sending with ⟨channel, chunk, rfl⟩ | ⟨error, rfl⟩
      · obtain ⟨logged, feed, passed, iterates⟩ := feeds
        have events : call.feedEvents config state = [.refused, .returns .forwardFailed] := by
          simp only [Call.feedEvents, at_phase, gone, Bool.false_eq_true, if_false]
        rw [events]
        exact iterates.loses logged gone
      · obtain ⟨logged, feed, iterates⟩ := feeds
        have events : call.feedEvents config state =
            [.refused, .returns (.dispatchFailed error)] := by
          simp only [Call.feedEvents, at_phase, gone, Bool.false_eq_true, if_false]
        rw [events]
        exact iterates.tellsNobody logged gone
  | leave at_phase =>
      simp only [Call.Feeds, at_phase] at feeds
      simp only [Call.feedEvents, at_phase, List.append_nil]
      exact feeds.client rfl rfl id fun _ sent => ⟨sent.taken, sent.waiting⟩

/-- What workers do to the channel a task waits for is for the task to find out. -/
theorem Call.Feeds.mapChannel {call : Call} (feeds : call.Feeds config log) (number : Nat)
    (change : ChunkChannel → ChunkChannel) : (call.mapChannel number change).Feeds config log := by
  rcases call.mapChannel_cases number change with
    ⟨_, same⟩ | ⟨remaining, channel, _, at_phase, mapped⟩ |
      ⟨remaining, channel, chunk, _, at_phase, mapped⟩
  · rwa [same]
  · simp only [Call.Feeds, at_phase] at feeds
    rw [mapped]
    exact ⟨feeds.1.rephase _, feeds.2⟩
  · simp only [Call.Feeds, at_phase] at feeds
    rw [mapped]
    exact ⟨feeds.1.rephase _, feeds.2⟩

/-- The client takes an item or leaves: the task has sent what it has sent. -/
theorem Call.Feeds.client {call after : Call} (feeds : call.Feeds config log)
    (stream : call.hasStream = true) (phase : after.phase = call.phase)
    (count : after.count = call.count) (channels : after.channels = call.channels)
    (connected : after.connected = true → call.connected = true)
    (sent : ∀ items, call.Sent items → after.Sent items) : after.Feeds config log := by
  unfold Call.hasStream at stream
  split at stream
  · next remaining stage at_phase =>
      simp only [Call.Feeds, phase, at_phase, count] at feeds ⊢
      obtain ⟨logged, stageFeeds⟩ := feeds
      refine ⟨⟨?_, logged.running, logged.there, sent _ logged.sent, ?_⟩, stageFeeds⟩
      · rw [channels]
        exact logged.dispatched
      · rw [channels]
        exact logged.fresh
  · next at_phase =>
      simp only [Call.Feeds, phase, at_phase] at feeds ⊢
      exact CallsFeedChunks.client feeds count channels connected sent
  · next at_phase =>
      simp only [Call.Feeds, phase, at_phase] at feeds ⊢
      exact CallsFeedChunks.client feeds count channels connected sent
  · cases stream

/-- The step of a task takes it and its log along. -/
theorem feeds_of_callStep {index : Nat} (feeds : (state.calls index).Feeds config log)
    (stepped : Server.step config state (.call index) = some next) :
    (next.calls index).Feeds config (log ++ (state.calls index).feedEvents config state) := by
  cases moves_of_step stepped with
  | call _ after inflight nextWorker moves =>
      show (Function.update state.calls index after index).Feeds config _
      rw [Function.update_self]
      exact moves.feeds feeds
  | reserve _ remaining worker chunkSize at_phase up room =>
      simp only [Call.Feeds, at_phase] at feeds
      simp only [Call.feedEvents, at_phase, up, Bool.false_eq_true, if_false, List.append_nil,
        State.setCall, State.setWorker, Function.update_self]
      exact ⟨feeds.1.rephase _, feeds.2⟩
  | send _ remaining worker chunkSize at_phase =>
      simp only [Call.Feeds, at_phase] at feeds
      obtain ⟨logged, feed, iterates⟩ := feeds
      simp only [Call.feedEvents, at_phase, List.append_nil, State.setCall, State.setWorker,
        Function.update_self]
      exact ⟨logged.rephase _, feed, [], iterates⟩

/-- One call changes, and it is another one or its log stays. -/
theorem feeds_update {index other : Nat} {call : Call}
    (feeds : (state.calls index).Feeds config log)
    (changed : other = index → call.Feeds config log) :
    (Function.update state.calls other call index).Feeds config log := by
  by_cases same : other = index
  · rw [same, Function.update_self]
    exact changed same
  · rwa [Function.update_of_ne (Ne.symm same)]

/-- A step of the server takes every call and its log along. -/
theorem feeds_of_step (ledger : Ledger config state) {label : Label} {index : Nat}
    (feeds : (state.calls index).Feeds config log)
    (stepped : Server.step config state label = some next) :
    (next.calls index).Feeds config (log ++ feedEvents config index state label) := by
  by_cases own : label = .call index
  · rw [own] at stepped
    rw [feedEvents, if_pos own]
    exact feeds_of_callStep feeds stepped
  · rw [feedEvents, if_neg own, List.append_nil]
    have moves := moves_of_step stepped
    cases label with
    | work worker now =>
        have kept : ∀ call number change, Call.Feeds config call log →
            (call.mapChannel number change).Feeds config log :=
          fun _ number change feeds => feeds.mapChannel number change
        exact moves.work_calls kept feeds
    | arrive count =>
        cases moves with
        | arrive =>
            refine feeds_update feeds fun same => ?_
            have absent := ledger.absent index (Nat.le_of_eq same)
            simp only [Call.Feeds, absent] at feeds
            exact ⟨feeds.1, rfl, rfl, rfl⟩
    | call other =>
        have different : index ≠ other := fun same => own (congrArg Label.call same.symm)
        have same : next.calls index = state.calls index := by
          cases moves <;> exact Function.update_of_ne different _ _
        rwa [same]
    | receive other =>
        cases moves with
        | receive _ item resp stream connected waiting =>
            refine feeds_update feeds fun same => ?_
            subst same
            refine feeds.client stream rfl rfl rfl id fun items sent => ?_
            have all := sent.waiting connected
            rw [waiting, ← List.singleton_append, ← List.append_assoc] at all
            exact ⟨⟨resp, all⟩, fun _ => all⟩
    | disconnect other =>
        cases moves with
        | disconnect _ stream connected =>
            refine feeds_update feeds fun same => ?_
            subst same
            refine feeds.client stream rfl rfl rfl (fun connected => nomatch connected)
              fun items sent => ?_
            exact ⟨sent.taken, fun connected => nomatch connected⟩
    | abort worker =>
        cases moves with
        | abort => exact feeds
    | manage timeout => cases moves <;> exact feeds

theorem feeds_of_run {labels : List Label}
    (ran : Transition.run (Server.step config) (initial config) labels = some state)
    (index : Nat) : (state.calls index).Feeds config (feedLog config index labels) := by
  have both := Transition.run_invariant_logged
    (fun state log => Ledger config state ∧ (state.calls index).Feeds config log)
    (fun _ _ _ _ before stepped =>
      ⟨before.1.step stepped, feeds_of_step before.1 before.2 stepped⟩)
    ⟨ledger_initial config, rfl, rfl, rfl, rfl⟩ ran
  exact both.2

end Steps

/-- Whatever the other tasks do, a feed task that has ended did in its run what a call of
`feed_chunks` does that meets the same: the errors and the messages that its dispatches were
answered with, and a client that was there for every item or left before the last one. The
call asks workers for the same, sends the same items and returns the same. -/
theorem feed_tasks_call_feedChunks (config : ServerConfig) (labels : List Label) (state : State)
    (ran : Transition.run (step config) (initial config) labels = some state) (index : Nat)
    (gone : Gone (state.calls index)) :
    (state.calls index).CallsFeedChunks config (feedLog config index labels) := by
  have feeds := feeds_of_run ran index
  rcases gone with at_phase | at_phase
  · simp only [Call.Feeds, at_phase] at feeds
    exact feeds
  · simp only [Call.Feeds, at_phase] at feeds
    exact feeds

/-- A stream of one ID, not read yet. -/
def oneIdRun : List Label :=
  List.flatten [[.arrive 1], List.replicate 8 (.call 0), List.replicate 6 (.work 0 5#_),
    List.replicate 4 (.call 0)]

theorem feed_tasks_call_feedChunks_one_id :
    ∃ state, Transition.run (step (nodeAt 0)) (initial (nodeAt 0)) oneIdRun = some state ∧
      (feedLog (nodeAt 0) 0 oneIdRun).requests = [1] ∧
      (feedLog (nodeAt 0) 0 oneIdRun).result = .ok ∧
      (state.calls 0).CallsFeedChunks (nodeAt 0) (feedLog (nodeAt 0) 0 oneIdRun) := by
  have observed : (Transition.run (step (nodeAt 0)) (initial (nodeAt 0)) oneIdRun).map
      (fun state => (state.calls 0).phase) = some .returned := by
    decide +kernel
  obtain ⟨state, ran, at_phase⟩ := Option.map_eq_some_iff.mp observed
  exact ⟨state, ran, by decide +kernel, by decide +kernel,
    feed_tasks_call_feedChunks (nodeAt 0) oneIdRun state ran 0 (Or.inl at_phase)⟩

end Ferroid.Server
