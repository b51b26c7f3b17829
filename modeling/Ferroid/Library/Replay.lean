/-!
Contract: sequential replay of the updates of one cell.

Owns the shape of one update attempt (`Plan`), the update log, what it means
for a log to be a sequential replay from a start state, and the order laws of a
protocol whose updates raise a rank.

Does not own how threads share the cell.
-/

namespace Ferroid.Library.Replay

variable {State Clock Draw Result Thread : Type}

/-- What an attempt does with the state and the clock reading it sees: return
without an update, install a state, or ask the random source first. -/
inductive Plan (State Draw Result : Type) where
  | wait (result : Result)
  | commit (next : State)
  | draw (next : Draw → State)

/-- The plan installs a state, having taken `drawn` from the random source. -/
inductive Plan.Resolves : Plan State Draw Result → Option Draw → State → Prop where
  | commit (next : State) : Resolves (.commit next) none next
  | draw (next : Draw → State) (value : Draw) : Resolves (.draw next) (some value) (next value)

/-- An update protocol: the plan of one attempt, the answer to a caller whose
update took effect, and the answer to a caller whose update lost a race. -/
structure Protocol (State Clock Draw Result : Type) where
  plan : State → Clock → Plan State Draw Result
  ready : State → Result
  lost : Result

/-- One update that took effect. `since` counts the updates that had taken
effect when its attempt read the cell. -/
structure Update (State Clock Draw Thread : Type) where
  thread : Thread
  now : Clock
  drawn : Option Draw
  since : Nat
  next : State

variable (protocol : Protocol State Clock Draw Result)

/-- The updates are a sequential run: each resolves the plan at the state its
predecessor installed. -/
def Protocol.Replays : State → List (Update State Clock Draw Thread) → State → Prop
  | start, [], final => start = final
  | start, update :: rest, final =>
      (protocol.plan start update.now).Resolves update.drawn update.next ∧
        Replays update.next rest final

variable {protocol}

theorem replays_append {start final : State}
    {front back : List (Update State Clock Draw Thread)} :
    protocol.Replays start (front ++ back) final ↔
      ∃ middle, protocol.Replays start front middle ∧ protocol.Replays middle back final := by
  induction front generalizing start with
  | nil => simp [Protocol.Replays]
  | cons update rest inductionHypothesis =>
      simp only [List.cons_append, Protocol.Replays, inductionHypothesis]
      constructor
      · rintro ⟨resolves, middle, first, second⟩
        exact ⟨middle, ⟨resolves, first⟩, second⟩
      · rintro ⟨middle, ⟨resolves, first⟩, second⟩
        exact ⟨resolves, middle, first, second⟩

theorem replays_unique {start left right : State}
    {updates : List (Update State Clock Draw Thread)}
    (first : protocol.Replays start updates left)
    (second : protocol.Replays start updates right) : left = right := by
  induction updates generalizing start with
  | nil => exact first.symm.trans second
  | cons update rest inductionHypothesis => exact inductionHypothesis first.2 second.2

/-- Splitting a replay at any length. -/
theorem replays_split {start final : State}
    {updates : List (Update State Clock Draw Thread)}
    (replays : protocol.Replays start updates final) (count : Nat) :
    ∃ middle, protocol.Replays start (updates.take count) middle ∧
      protocol.Replays middle (updates.drop count) final := by
  rw [← List.take_append_drop count updates] at replays
  exact replays_append.mp replays

/-! ## Protocols that keep a property -/

/-- Updates from good states with admissible readings are good. -/
def Protocol.Keeps (protocol : Protocol State Clock Draw Result)
    (Good : State → Prop) (Admissible : Clock → Prop) : Prop :=
  ∀ ⦃state now drawn next⦄, Good state → Admissible now →
    (protocol.plan state now).Resolves drawn next → Good next

variable {Good : State → Prop} {Admissible : Clock → Prop} {rank : State → Nat}

theorem replays_good (keeps : protocol.Keeps Good Admissible)
    {start final : State} {updates : List (Update State Clock Draw Thread)}
    (good : Good start) (admissible : ∀ update ∈ updates, Admissible update.now)
    (replays : protocol.Replays start updates final) :
    Good final ∧ ∀ update ∈ updates, Good update.next := by
  induction updates generalizing start with
  | nil =>
      cases replays
      exact ⟨good, by simp⟩
  | cons update rest inductionHypothesis =>
      obtain ⟨resolves, continued⟩ := replays
      have nextGood := keeps good (admissible update (by simp)) resolves
      obtain ⟨finalGood, restGood⟩ := inductionHypothesis nextGood
        (fun other member => admissible other (by simp [member])) continued
      refine ⟨finalGood, ?_⟩
      intro other member
      rcases List.mem_cons.mp member with rfl | later
      · exact nextGood
      · exact restGood other later

/-! ## Growing protocols -/

/-- Updates moreover raise the rank. -/
structure Protocol.Grows (protocol : Protocol State Clock Draw Result)
    (Good : State → Prop) (Admissible : Clock → Prop) (rank : State → Nat) : Prop where
  keeps : protocol.Keeps Good Admissible
  rank_lt : ∀ ⦃state now drawn next⦄, Good state → Admissible now →
    (protocol.plan state now).Resolves drawn next → rank state < rank next

/-- Along a replay every installed state outranks the start and all states
installed before it. -/
theorem replays_increasing (grows : protocol.Grows Good Admissible rank)
    {start final : State} {updates : List (Update State Clock Draw Thread)}
    (good : Good start) (admissible : ∀ update ∈ updates, Admissible update.now)
    (replays : protocol.Replays start updates final) :
    rank start ≤ rank final ∧
      (∀ update ∈ updates, rank start < rank update.next) ∧
      (updates.map (fun update => rank update.next)).Pairwise (· < ·) := by
  induction updates generalizing start with
  | nil =>
      cases replays
      exact ⟨Nat.le_refl _, by simp, by simp⟩
  | cons update rest inductionHypothesis =>
      obtain ⟨resolves, continued⟩ := replays
      have readingOk := admissible update (by simp)
      have below := grows.rank_lt good readingOk resolves
      obtain ⟨finalAbove, allAbove, sorted⟩ :=
        inductionHypothesis (grows.keeps good readingOk resolves)
          (fun other member => admissible other (by simp [member])) continued
      refine ⟨by omega, ?_, ?_⟩
      · intro other member
        rcases List.mem_cons.mp member with rfl | later
        · exact below
        · have := allAbove other later
          omega
      · rw [List.map_cons, List.pairwise_cons]
        refine ⟨?_, sorted⟩
        intro value member
        obtain ⟨other, later, rfl⟩ := List.mem_map.mp member
        exact allAbove other later

/-- A nonempty replay of a growing protocol ends in another state. -/
theorem replays_rank_lt (grows : protocol.Grows Good Admissible rank)
    {start final : State} {updates : List (Update State Clock Draw Thread)}
    (good : Good start) (admissible : ∀ update ∈ updates, Admissible update.now)
    (replays : protocol.Replays start updates final) (nonempty : updates ≠ []) :
    rank start < rank final := by
  cases updates with
  | nil => exact absurd rfl nonempty
  | cons update rest =>
      obtain ⟨resolves, continued⟩ := replays
      have readingOk := admissible update (by simp)
      have below := grows.rank_lt good readingOk resolves
      obtain ⟨above, _, _⟩ := replays_increasing grows (grows.keeps good readingOk resolves)
        (fun other member => admissible other (by simp [member])) continued
      omega

end Ferroid.Library.Replay
