import Mathlib.Data.List.Chain

/-!
Contract: the `Poll` status and runs of a polled generator.

Owns the outcome type of `poll_id`, the record of one poll, the run of a list of
polls, and the rule that carries a relation between a generator's state and its
next Ready ID to the whole sequence of Ready IDs.

Does not own any generator.
-/

namespace Ferroid.Generator

/-- Outcome of one attempt to generate an ID. -/
inductive Poll (ID Ty : Type) where
  | ready (id : ID)
  | pending (yieldFor : Ty)
deriving DecidableEq, Repr

variable {ID Ty Generator Reading : Type}

namespace Poll

def ready? : Poll ID Ty → Option ID
  | .ready id => some id
  | .pending _ => none

/-- The attempt produced no ID. -/
def IsPending (poll : Poll ID Ty) : Prop := ∃ yieldFor, poll = .pending yieldFor

theorem ready?_eq_some {poll : Poll ID Ty} {id : ID} :
    poll.ready? = some id ↔ poll = .ready id := by
  cases poll <;> simp [ready?]

theorem ready?_eq_none {poll : Poll ID Ty} : poll.ready? = none ↔ poll.IsPending := by
  cases poll <;> simp [ready?, IsPending]

instance (poll : Poll ID Ty) : Decidable poll.IsPending :=
  decidable_of_iff (poll.ready?.isNone = true) (Option.isNone_iff_eq_none.trans ready?_eq_none)

theorem not_isPending_ready (id : ID) : ¬ (Poll.ready id : Poll ID Ty).IsPending := by
  simp [IsPending]

/-- Waiting one tick is not waiting none. -/
theorem pending_one_ne_pending_zero {width : Nat} (positive : 0 < width) :
    (Poll.pending 1#(width) : Poll ID (BitVec width)) ≠ .pending 0#(width) := by
  intro same
  have equal := congrArg BitVec.toNat (Poll.pending.inj same)
  rw [BitVec.toNat_ofNat, Nat.mod_eq_of_lt (Nat.one_lt_two_pow positive.ne'),
    BitVec.toNat_zero] at equal
  omega

/-- Nor is waiting for a clock that is behind. -/
theorem pending_sub_ne_pending_zero {width : Nat} {now current : BitVec width}
    (behind : now < current) :
    (Poll.pending (current - now) : Poll ID (BitVec width)) ≠ .pending 0#(width) := by
  intro same
  have equal := congrArg BitVec.toNat (Poll.pending.inj same)
  rw [BitVec.toNat_sub_of_le (BitVec.le_of_lt behind), BitVec.toNat_zero] at equal
  have less : now.toNat < current.toNat := behind
  omega

end Poll

/-! ## Runs -/

/-- One poll of a run: the generator before and after it, the clock reading and
the outcome. -/
structure Polled (ID Ty Generator Reading : Type) where
  before : Generator
  now : Reading
  result : Poll ID Ty
  after : Generator

/-- Poll once for each clock reading, in order. -/
def pollAll (poll : Generator → Reading → Generator × Poll ID Ty) :
    Generator → List Reading → List (Polled ID Ty Generator Reading)
  | _, [] => []
  | generator, now :: rest =>
      let next := poll generator now
      ⟨generator, now, next.2, next.1⟩ :: pollAll poll next.1 rest

/-- The generator a run ends with. -/
def afterAll (poll : Generator → Reading → Generator × Poll ID Ty) :
    Generator → List Reading → Generator
  | generator, [] => generator
  | generator, now :: rest => afterAll poll (poll generator now).1 rest

/-- The IDs returned as Ready, in order. -/
def readyIds (trace : List (Polled ID Ty Generator Reading)) : List ID :=
  trace.filterMap fun polled => polled.result.ready?

theorem mem_readyIds {trace : List (Polled ID Ty Generator Reading)} {id : ID} :
    id ∈ readyIds trace ↔ ∃ polled ∈ trace, polled.result = .ready id := by
  simp [readyIds, Poll.ready?_eq_some]

variable {poll : Generator → Reading → Generator × Poll ID Ty}

theorem readyIds_pollAll_ready {generator : Generator} {now : Reading} {rest : List Reading}
    {id : ID} (ready : (poll generator now).2 = .ready id) :
    readyIds (pollAll poll generator (now :: rest)) =
      id :: readyIds (pollAll poll (poll generator now).1 rest) := by
  simp only [pollAll, readyIds, List.filterMap_cons, ready, Poll.ready?]

theorem readyIds_pollAll_pending {generator : Generator} {now : Reading} {rest : List Reading}
    (pending : (poll generator now).2.IsPending) :
    readyIds (pollAll poll generator (now :: rest)) =
      readyIds (pollAll poll (poll generator now).1 rest) := by
  obtain ⟨yieldFor, outcome⟩ := pending
  simp only [pollAll, readyIds, List.filterMap_cons, outcome, Poll.ready?]

variable (Good : Generator → Prop) (Admissible : Reading → Prop)

/-- A property of single polls that holds from good generators holds of every
poll of a run. -/
theorem pollAll_forall (Holds : Polled ID Ty Generator Reading → Prop)
    (keeps : ∀ generator now, Good generator → Admissible now →
      Good (poll generator now).1 ∧
        Holds ⟨generator, now, (poll generator now).2, (poll generator now).1⟩)
    {generator : Generator} {readings : List Reading} (good : Good generator)
    (admissible : ∀ now ∈ readings, Admissible now) :
    ∀ polled ∈ pollAll poll generator readings, Holds polled := by
  induction readings generalizing generator with
  | nil => simp [pollAll]
  | cons now rest inductionHypothesis =>
      obtain ⟨nextGood, holds⟩ := keeps generator now good (admissible now (by simp))
      intro polled member
      rcases List.mem_cons.mp member with rfl | later
      · exact holds
      · exact inductionHypothesis nextGood
          (fun other earlier => admissible other (by simp [earlier])) polled later

/-- The state before a run followed by its Ready IDs is a chain: a Ready poll
stores the ID it returns, related to the state it found, and a Pending poll
stores nothing. -/
theorem readyIds_chain (stateOf : Generator → ID) (Related : ID → ID → Prop)
    (keeps : ∀ generator now, Good generator → Admissible now →
      Good (poll generator now).1 ∧
        (∀ id, (poll generator now).2 = .ready id →
          stateOf (poll generator now).1 = id ∧ Related (stateOf generator) id) ∧
        ((poll generator now).2.IsPending →
          stateOf (poll generator now).1 = stateOf generator))
    {generator : Generator} {readings : List Reading} (good : Good generator)
    (admissible : ∀ now ∈ readings, Admissible now) :
    List.IsChain Related (stateOf generator :: readyIds (pollAll poll generator readings)) := by
  induction readings generalizing generator with
  | nil => exact List.isChain_singleton _
  | cons now rest inductionHypothesis =>
      obtain ⟨nextGood, onReady, onPending⟩ :=
        keeps generator now good (admissible now (by simp))
      have continued := inductionHypothesis nextGood
        (fun other earlier => admissible other (by simp [earlier]))
      cases outcome : (poll generator now).2 with
      | ready id =>
          obtain ⟨stored, related⟩ := onReady id outcome
          rw [stored] at continued
          rw [readyIds_pollAll_ready outcome]
          exact List.isChain_cons_cons.mpr ⟨related, continued⟩
      | pending yieldFor =>
          rw [onPending ⟨yieldFor, outcome⟩] at continued
          rw [readyIds_pollAll_pending ⟨yieldFor, outcome⟩]
          exact continued

end Ferroid.Generator
