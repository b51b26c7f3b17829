import Mathlib.Algebra.GroupWithZero.Nat
import Mathlib.Algebra.BigOperators.Group.Finset.Piecewise
import Mathlib.Algebra.Order.BigOperators.Group.Finset

/-!
Contract: the total weight of an indexed family and how one update changes it.

Owns the sum of a weight over the first members of a family and its exact and
bounded change when one member is replaced.

Does not own any family or weight.
-/

namespace Ferroid.Library

variable {α : Type}

/-- The weights of the members below `size`, added up. -/
def total (weight : α → Nat) (size : Nat) (family : Nat → α) : Nat :=
  ∑ index ∈ Finset.range size, weight (family index)

variable {weight : α → Nat} {size : Nat} {family : Nat → α} {index : Nat} {value : α}

theorem total_update_of_lt (inside : index < size) :
    total weight size (Function.update family index value) + weight (family index) =
      total weight size family + weight value := by
  have member : index ∈ Finset.range size := Finset.mem_range.mpr inside
  have composed : (fun other => weight (Function.update family index value other)) =
      Function.update (fun other => weight (family other)) index (weight value) := by
    funext other
    by_cases same : other = index
    · subst same
      simp
    · simp [Function.update_of_ne same]
  simp only [total]
  rw [composed, Finset.sum_update_of_mem member, ← Finset.add_sum_erase _ _ member,
    Finset.sdiff_singleton_eq_erase]
  omega

theorem total_update_of_le (outside : size ≤ index) :
    total weight size (Function.update family index value) = total weight size family := by
  refine Finset.sum_congr rfl fun other member => ?_
  rw [Function.update_of_ne]
  have inside := Finset.mem_range.mp member
  omega

/-- The family grows by one member. -/
theorem total_succ_update (family : Nat → α) :
    total weight (size + 1) (Function.update family size value) =
      total weight size family + weight value := by
  rw [total, Finset.sum_range_succ, Function.update_self]
  congr 1
  exact total_update_of_le (Nat.le_refl size)

/-- A member that grows by at most `increase` makes the total grow by no more. -/
theorem total_update_le {increase : Nat}
    (bound : weight value ≤ weight (family index) + increase) :
    total weight size (Function.update family index value) ≤
      total weight size family + increase := by
  by_cases inside : index < size
  · have changed : total weight size (Function.update family index value) +
        weight (family index) = total weight size family + weight value :=
      total_update_of_lt inside
    omega
  · rw [total_update_of_le (Nat.le_of_not_lt inside)]
    omega

theorem le_total (weight : α → Nat) (family : Nat → α) (inside : index < size) :
    weight (family index) ≤ total weight size family :=
  Finset.single_le_sum (f := fun other => weight (family other)) (fun _ _ => Nat.zero_le _)
    (Finset.mem_range.mpr inside)

theorem total_congr {β : Type} {other : β → Nat} {others : Nat → β}
    (same : ∀ index, weight (family index) = other (others index)) :
    total weight size family = total other size others :=
  Finset.sum_congr rfl fun index _ => same index

theorem total_eq_zero (light : ∀ index, weight (family index) = 0) :
    total weight size family = 0 :=
  Finset.sum_eq_zero fun index _ => light index

/-- Members that weigh at most one weigh no more together than they are. -/
theorem total_le_size (light : ∀ value, weight value ≤ 1) : total weight size family ≤ size := by
  have bound := Finset.sum_le_sum fun index (_ : index ∈ Finset.range size) =>
    light (family index)
  rw [Finset.sum_const, Finset.card_range, Nat.nsmul_eq_mul, Nat.mul_one] at bound
  exact bound

/-- Members that grow by no more make the total grow by no more. -/
theorem total_le_total {others : Nat → α}
    (bound : ∀ index, weight (others index) ≤ weight (family index)) :
    total weight size others ≤ total weight size family :=
  Finset.sum_le_sum fun index _ => bound index

/-- One member grows by at most `increase`, and no other member grows. -/
theorem total_le_add {others : Nat → α} {increase : Nat}
    (here : weight (others index) ≤ weight (family index) + increase)
    (elsewhere : ∀ other, other ≠ index → weight (others other) ≤ weight (family other)) :
    total weight size others ≤ total weight size family + increase := by
  have pointwise : ∀ other, weight (others other) ≤
      weight (Function.update family index (others index) other) := by
    intro other
    by_cases same : other = index
    · rw [same, Function.update_self]
    · rw [Function.update_of_ne same]
      exact elsewhere other same
  exact Nat.le_trans (total_le_total pointwise) (total_update_le here)

/-- One member grows by `increase`, and no other member changes its weight. -/
theorem total_eq_add {others : Nat → α} {increase : Nat} (inside : index < size)
    (here : weight (others index) = weight (family index) + increase)
    (elsewhere : ∀ other, other ≠ index → weight (others other) = weight (family other)) :
    total weight size others = total weight size family + increase := by
  have pointwise : total weight size others =
      total weight size (Function.update family index (others index)) := by
    apply total_congr
    intro other
    by_cases same : other = index
    · rw [same, Function.update_self]
    · rw [Function.update_of_ne same]
      exact elsewhere other same
  have updated : total weight size (Function.update family index (others index)) +
      weight (family index) = total weight size family + weight (others index) :=
    total_update_of_lt inside
  omega

theorem total_eq_sum (weight : α → Nat) (size : Nat) (family : Nat → α) :
    total weight size family = ((List.range size).map fun index => weight (family index)).sum :=
  rfl

/-- Two members weigh no more than all. -/
theorem add_le_total (weight : α → Nat) (family : Nat → α) {other : Nat} (inside : index < size)
    (otherInside : other < size) (different : index ≠ other) :
    weight (family index) + weight (family other) ≤ total weight size family := by
  have both : ({index, other} : Finset Nat) ⊆ Finset.range size := by
    intro member isMember
    rcases Finset.mem_insert.mp isMember with rfl | isOther
    · exact Finset.mem_range.mpr inside
    · rw [Finset.mem_singleton.mp isOther]
      exact Finset.mem_range.mpr otherInside
  have bound := Finset.sum_le_sum_of_subset (f := fun member => weight (family member)) both
  rwa [Finset.sum_pair different] at bound

end Ferroid.Library
