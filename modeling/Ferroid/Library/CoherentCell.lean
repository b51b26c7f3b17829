import Mathlib.Logic.Function.Basic

/-!
Contract: one atomic location under relaxed stores and loads.

Owns the modification order of the location, the position in it that each thread has
reached, and the coherence rule: a load may return an old value, but none from before
the thread's position. So where the stored values only grow, each thread sees them
grow, whatever other threads see.

Does not own any order between different threads; relaxed accesses give none.
-/

namespace Ferroid.Library

/-- `values` is the modification order, the first value included; `view` is the position
of the last load of each thread. -/
structure CoherentCell (Value Thread : Type) where
  values : List Value
  view : Thread → Nat

namespace CoherentCell

variable {Value Thread : Type}

/-- A location that holds `value` and was read by nobody. -/
def new (value : Value) : CoherentCell Value Thread := ⟨[value], fun _ => 0⟩

def store (cell : CoherentCell Value Thread) (value : Value) : CoherentCell Value Thread :=
  { cell with values := cell.values ++ [value] }

/-- A thread loads the value at a position, unless it has already seen a later one. -/
def load [DecidableEq Thread] (cell : CoherentCell Value Thread) (thread : Thread)
    (position : Nat) : Option (Value × CoherentCell Value Thread) :=
  if cell.view thread ≤ position then
    match cell.values[position]? with
    | some value => some (value, { cell with view := Function.update cell.view thread position })
    | none => none
  else
    none

/-- Everything a thread can still load is at least this. -/
def AtLeast [LE Value] (cell : CoherentCell Value Thread) (thread : Thread) (bound : Value) :
    Prop :=
  ∀ (position : Nat) (value : Value), cell.view thread ≤ position →
    cell.values[position]? = some value → bound ≤ value

/-- A new value that is large enough takes nothing back. -/
theorem AtLeast.store [LE Value] {cell : CoherentCell Value Thread} {thread : Thread}
    {bound value : Value} (atLeast : cell.AtLeast thread bound)
    (large : bound ≤ value) : (cell.store value).AtLeast thread bound := by
  intro place found inView isFound
  rcases Nat.lt_or_ge place cell.values.length with inside | beyond
  · apply atLeast place found inView
    rw [← isFound]
    exact (List.getElem?_append_left inside).symm
  · have isValue : [value][place - cell.values.length]? = some found := by
      rw [← isFound]
      exact (List.getElem?_append_right beyond).symm
    rw [List.getElem?_singleton] at isValue
    split at isValue
    · cases isValue
      exact large
    · cases isValue

section Loads

variable [DecidableEq Thread] {cell next : CoherentCell Value Thread} {thread : Thread}
  {position : Nat} {value : Value}

/-- What a load is and does. -/
theorem load_eq_some :
    cell.load thread position = some (value, next) ↔
      cell.view thread ≤ position ∧ cell.values[position]? = some value ∧
        next = { cell with view := Function.update cell.view thread position } := by
  unfold load
  by_cases inView : cell.view thread ≤ position
  · rw [if_pos inView]
    cases found : cell.values[position]? with
    | none => simp
    | some other => simp [inView, eq_comm]
  · simp [inView]

variable [LE Value] {other : Thread} {bound : Value}

/-- Loads take nothing back. -/
theorem AtLeast.load (atLeast : cell.AtLeast other bound)
    (loaded : cell.load thread position = some (value, next)) : next.AtLeast other bound := by
  obtain ⟨inView, _, rfl⟩ := load_eq_some.mp loaded
  intro place found laterView isFound
  apply atLeast place found _ isFound
  by_cases same : other = thread
  · rw [same] at laterView ⊢
    simp only [Function.update_self] at laterView
    exact Nat.le_trans inView laterView
  · simpa only [Function.update_of_ne same] using laterView

end Loads

/-- Where the values only grow, nothing below a loaded value can be loaded any more. -/
theorem atLeast_of_load [DecidableEq Thread] [LE Value] [Std.IsPreorder Value]
    {cell next : CoherentCell Value Thread} {thread : Thread} {position : Nat} {value : Value}
    (sorted : cell.values.Pairwise (· ≤ ·))
    (loaded : cell.load thread position = some (value, next)) : next.AtLeast thread value := by
  obtain ⟨_, found, rfl⟩ := load_eq_some.mp loaded
  intro place later inView isFound
  simp only [Function.update_self] at inView
  obtain ⟨inside, here⟩ := List.getElem?_eq_some_iff.mp found
  obtain ⟨laterInside, there⟩ := List.getElem?_eq_some_iff.mp isFound
  rcases Nat.lt_or_ge position place with before | notBefore
  · rw [← here, ← there]
    exact List.pairwise_iff_getElem.mp sorted position place inside laterInside before
  · obtain rfl : position = place := Nat.le_antisymm inView notBefore
    rw [← here, ← there]
    exact Std.le_refl _

end CoherentCell

end Ferroid.Library
