import Ferroid.Server.Model

/-!
Contract: `feed_chunks` as one call.

Owns the dispatch loop with its three ends, over what its dispatches, its chunk
channels and its client answer, and exactly when the loop serves every accepted
request.

Does not own the interleaving with other tasks (`Server.Step`).
-/

namespace Ferroid.Server

/-! ## The loop -/

/-- What `feed_chunks` has done: the IDs still to ask for, the sizes it has asked
workers for, and the items it has sent to the client. -/
structure Feed where
  remaining : Nat
  requests : List Nat
  resp : List Item

/-- How far a call gets; `running` when its fuel is used up. -/
inductive FeedResult where
  | ok
  | forwardFailed
  | dispatchFailed (error : DispatchError)
  | running
deriving DecidableEq, Repr

/-- What the loop meets: the answer to its n-th dispatch, either an error or the
messages received until the chunk channel closes, and whether the client still
holds its stream when the n-th item is sent. -/
structure FeedWorld where
  dispatch : Nat → Except DispatchError (List IdChunk)
  connected : Nat → Bool

/-- The inner loop: forward until the chunk channel closes or the client is gone. -/
def FeedWorld.forward (world : FeedWorld) : List Item → List IdChunk → List Item × Bool
  | resp, [] => (resp, true)
  | resp, msg :: rest =>
      if world.connected resp.length then
        world.forward (resp ++ [.chunk msg]) rest
      else
        (resp, false)

/-- `feed_chunks`; one unit of fuel an iteration. -/
def feedChunks (config : ServerConfig) (world : FeedWorld) : Nat → Feed → Feed × FeedResult
  | 0, feed => if 0 < feed.remaining then (feed, .running) else (feed, .ok)
  | fuel + 1, feed =>
      if 0 < feed.remaining then
        let chunkSize := min feed.remaining config.idsPerChunk
        let remaining := feed.remaining - chunkSize
        let requests := feed.requests ++ [chunkSize]
        match world.dispatch feed.requests.length with
        | .ok messages =>
            match world.forward feed.resp messages with
            | (resp, true) => feedChunks config world fuel ⟨remaining, requests, resp⟩
            | (resp, false) => (⟨remaining, requests, resp⟩, .forwardFailed)
        | .error error =>
            let resp := if world.connected feed.resp.length then feed.resp ++ [.error error]
              else feed.resp
            (⟨remaining, requests, resp⟩, .dispatchFailed error)
      else
        (feed, .ok)

def Feed.start (totalIds : Nat) : Feed := ⟨totalIds, [], []⟩

/-- Every dispatch succeeds and the client stays. -/
structure FeedWorld.Steady (world : FeedWorld) : Prop where
  dispatches : ∀ number, ∃ messages, world.dispatch number = .ok messages
  stays : ∀ number, world.connected number = true

/-! ## A steady loop -/

section Steady

variable {config : ServerConfig} {world : FeedWorld} {feed : Feed}

theorem FeedWorld.Steady.forward (steady : world.Steady) (resp : List Item)
    (messages : List IdChunk) :
    world.forward resp messages = (resp ++ messages.map Item.chunk, true) := by
  induction messages generalizing resp with
  | nil => simp [FeedWorld.forward]
  | cons msg rest inductionHypothesis =>
      rw [FeedWorld.forward, if_pos (steady.stays _), inductionHypothesis]
      simp

theorem feedChunks_done (done : feed.remaining = 0) (fuel : Nat) :
    feedChunks config world fuel feed = (feed, .ok) := by
  cases fuel with
  | zero => rw [feedChunks, if_neg (by omega)]
  | succ fuel => rw [feedChunks, if_neg (by omega)]

theorem feedChunks_zero (feed : Feed) : (feedChunks config world 0 feed).1 = feed := by
  rw [feedChunks]
  split <;> rfl

/-- One iteration asks for one chunk, whatever its messages are. -/
theorem feedChunks_cut (config : ServerConfig) (steady : world.Steady) (more : 0 < feed.remaining) :
    ∃ resp, ∀ fuel, feedChunks config world (fuel + 1) feed =
      feedChunks config world fuel
        ⟨feed.remaining - min feed.remaining config.idsPerChunk,
          feed.requests ++ [min feed.remaining config.idsPerChunk], resp⟩ := by
  obtain ⟨messages, dispatched⟩ := steady.dispatches feed.requests.length
  refine ⟨feed.resp ++ messages.map Item.chunk, ?_⟩
  intro fuel
  rw [feedChunks, if_pos more, dispatched]
  simp only [steady.forward]

/-- A loop that has run for some iterations goes on from where it stands. -/
theorem feedChunks_running (steady : world.Steady) {iterations : Nat} {reached : Feed}
    (running : feedChunks config world iterations feed = (reached, .running)) :
    0 < reached.remaining ∧
      feedChunks config world (iterations + 1) feed = feedChunks config world 1 reached := by
  induction iterations generalizing feed with
  | zero =>
      rw [feedChunks] at running
      split at running
      · next more =>
          cases running
          exact ⟨more, rfl⟩
      · cases running
  | succ iterations inductionHypothesis =>
      by_cases more : 0 < feed.remaining
      · obtain ⟨resp, cut⟩ := feedChunks_cut config steady more
        rw [cut] at running
        rw [cut]
        exact inductionHypothesis running
      · rw [feedChunks_done (by omega)] at running
        cases running

/-- With non-empty chunks, as many iterations as there are IDs are enough, and the
requests are the cuts of the count. -/
theorem feedChunks_ok (steady : world.Steady) (positive : 0 < config.idsPerChunk) {count fuel : Nat}
    (enough : feed.remaining ≤ fuel)
    (cuts : Cuts config.idsPerChunk count feed.requests feed.remaining) :
    ∃ final, feedChunks config world fuel feed = (final, .ok) ∧
      Cuts config.idsPerChunk count final.requests 0 := by
  induction fuel generalizing feed with
  | zero =>
      have done : feed.remaining = 0 := by omega
      rw [done] at cuts
      exact ⟨feed, feedChunks_done done 0, cuts⟩
  | succ fuel inductionHypothesis =>
      by_cases more : 0 < feed.remaining
      · obtain ⟨resp, cut⟩ := feedChunks_cut config steady more
        rw [cut]
        apply inductionHypothesis
        · show feed.remaining - min feed.remaining config.idsPerChunk ≤ fuel
          omega
        · exact cuts.cut more
      · have done : feed.remaining = 0 := by omega
        rw [done] at cuts
        exact ⟨feed, feedChunks_done done _, cuts⟩

/-- With empty chunks the loop never ends: every iteration asks for nothing. -/
theorem feedChunks_empty (steady : world.Steady) (empty : config.idsPerChunk = 0)
    (more : 0 < feed.remaining) (fuel : Nat) :
    (feedChunks config world fuel feed).2 = .running := by
  induction fuel generalizing feed with
  | zero => rw [feedChunks, if_pos more]
  | succ fuel inductionHypothesis =>
      obtain ⟨resp, cut⟩ := feedChunks_cut config steady more
      rw [cut]
      apply inductionHypothesis
      show 0 < feed.remaining - min feed.remaining config.idsPerChunk
      rw [empty, Nat.min_zero, Nat.sub_zero]
      exact more

end Steady

/-! ## Dispatching a request -/

/-- The loop serves a request: it makes progress in every iteration and ends after
asking for exactly the IDs of the request, in chunks that fit a worker's buffer. -/
structure DispatchesAll (config : ServerConfig) (world : FeedWorld) (count : Nat) : Prop where
  decreases : ∀ iterations,
    (feedChunks config world iterations (.start count)).2 = .running →
      (feedChunks config world (iterations + 1) (.start count)).1.remaining <
        (feedChunks config world iterations (.start count)).1.remaining
  terminates : ∃ iterations final,
    feedChunks config world iterations (.start count) = (final, .ok) ∧
      final.requests.length = chunksFor config.idsPerChunk count ∧ final.requests.sum = count ∧
      ∀ size ∈ final.requests, 1 ≤ size ∧ size ≤ config.idsPerChunk ∧
        size * SNOWFLAKE_ID_SIZE ≤ config.chunkBytes

/-- For an accepted configuration and request, the loop serves the request exactly
when chunks are not empty. -/
theorem dispatchesAll_iff (config : ServerConfig) (accepted : config.Accepted)
    (world : FeedWorld) (steady : world.Steady) (count : Nat) (positive : 1 ≤ count) :
    DispatchesAll config world count ↔ 0 < config.idsPerChunk := by
  constructor
  · intro dispatches
    by_contra empty
    obtain ⟨iterations, final, ended, _⟩ := dispatches.terminates
    have started : 0 < (Feed.start count).remaining := positive
    have running := feedChunks_empty steady (Nat.eq_zero_of_not_pos empty) started iterations
    rw [ended] at running
    cases running
  · intro nonempty
    refine ⟨?_, ?_⟩
    · intro iterations running
      cases outcome : feedChunks config world iterations (.start count) with
      | mk reached result =>
          rw [outcome] at running
          obtain rfl : result = .running := running
          obtain ⟨more, next⟩ := feedChunks_running steady outcome
          obtain ⟨resp, cut⟩ := feedChunks_cut config steady more
          rw [next, cut 0, feedChunks_zero]
          show reached.remaining - min reached.remaining config.idsPerChunk < reached.remaining
          omega
    · have cutsStart : Cuts config.idsPerChunk count (Feed.start count).requests
          (Feed.start count).remaining := .start
      obtain ⟨final, ended, cuts⟩ := feedChunks_ok steady nonempty le_rfl cutsStart
      have accounts : Accounts config.idsPerChunk count final.requests 0 := by
        rw [Accounts, if_neg nonempty.ne']
        exact cuts
      obtain ⟨_, sum, bounds, number⟩ := accounts.finished
      refine ⟨_, final, ended, number, sum, ?_⟩
      intro size member
      obtain ⟨one, most⟩ := bounds size member
      refine ⟨one, most, ?_⟩
      rw [accepted.checked.chunkBytes_eq]
      exact Nat.mul_le_mul_right _ most

/-- Workers that answer every request with an empty channel, and a client that stays. -/
def FeedWorld.calm : FeedWorld := ⟨fun _ => .ok [], fun _ => true⟩

theorem FeedWorld.steady_calm : FeedWorld.calm.Steady :=
  ⟨fun _ => ⟨[], rfl⟩, fun _ => rfl⟩

/-- Three IDs in chunks of one. -/
theorem dispatchesAll_iff_three :
    ∃ iterations final,
      feedChunks (nodeAt 0) FeedWorld.calm iterations (.start 3) = (final, .ok) ∧
        final.requests.length = 3 ∧ final.requests.sum = 3 := by
  have dispatches := (dispatchesAll_iff (nodeAt 0) nodeAt_zero_accepted FeedWorld.calm
    FeedWorld.steady_calm 3 (by decide)).mpr (by decide)
  obtain ⟨iterations, final, ended, number, sum, _⟩ := dispatches.terminates
  exact ⟨iterations, final, ended, number, sum⟩

/-- `IDS_PER_CHUNK = 0` with every other option at a usual value. -/
def emptyChunks : ServerConfig := ⟨1000, 0, 1, 0, 8, 0, 3⟩

/-- It is accepted, and a request for one ID then keeps the loop busy for ever
without asking for any ID. -/
theorem feedChunks_never_ends :
    emptyChunks.Accepted ∧ 1 ≤ emptyChunks.maxAllowedIds ∧
      ∀ iterations, (feedChunks emptyChunks FeedWorld.calm iterations (.start 1)).2 = .running := by
  refine ⟨?_, by decide, ?_⟩
  · exact ⟨⟨1000, 0, 1, 0, 8, 3, by decide, by decide, by decide, by decide, by decide,
      by decide⟩, by decide +kernel⟩
  · intro iterations
    have started : 0 < (Feed.start 1).remaining := Nat.one_pos
    exact feedChunks_empty FeedWorld.steady_calm rfl started iterations

end Ferroid.Server
