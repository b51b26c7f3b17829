import Mathlib.Algebra.BigOperators.Field
import Mathlib.Algebra.Order.BigOperators.Group.Finset
import Mathlib.Algebra.Order.Field.Basic
import Mathlib.Algebra.Order.Ring.Rat
import Mathlib.Data.BitVec
import Mathlib.Data.Finset.Powerset
import Mathlib.Data.Set.Card.Arithmetic
import Mathlib.Logic.Equiv.Fin.Basic

/-!
Contract: the chance of an event under uniform draws.

Owns the share of the outcomes of a finite experiment in which an event happens, the union
bound over a family of events and over the pairs of a family, and the chance that two
different draws are related.

Does not own what is drawn or what makes two draws clash.
-/

namespace Ferroid.Library

/-- The share of the outcomes in which the event happens. -/
noncomputable def chance {Outcome : Type*} (event : Outcome → Prop) : ℚ :=
  {outcome | event outcome}.ncard / Nat.card Outcome

section Events

variable {Outcome : Type*}

/-- One of finitely many events happens. -/
theorem chance_exists_le {Index : Type*} (indices : Finset Index)
    (event : Index → Outcome → Prop) :
    chance (fun outcome => ∃ index ∈ indices, event index outcome) ≤
      ∑ index ∈ indices, chance (event index) := by
  have covered : {outcome | ∃ index ∈ indices, event index outcome} =
      ⋃ index ∈ indices, {outcome | event index outcome} := by
    ext outcome
    simp only [Set.mem_ofPred_eq, Set.mem_iUnion, exists_prop]
  have counted := indices.set_ncard_biUnion_le fun index => {outcome | event index outcome}
  unfold chance
  rw [covered, ← Finset.sum_div]
  gcongr
  exact_mod_cast counted

variable [Finite Outcome]

theorem chance_mono {event larger : Outcome → Prop}
    (implies : ∀ outcome, event outcome → larger outcome) : chance event ≤ chance larger := by
  have smaller : {outcome | event outcome}.ncard ≤ {outcome | larger outcome}.ncard :=
    Set.ncard_le_ncard implies
  unfold chance
  gcongr

/-- Two different members of a finite family clash. -/
theorem chance_exists_pair_le {Index : Type*} {indices : Finset Index}
    {clash : Index → Index → Outcome → Prop}
    (symmetric : ∀ left right outcome, clash left right outcome → clash right left outcome)
    {bound : ℚ}
    (each : ∀ left ∈ indices, ∀ right ∈ indices, left ≠ right → chance (clash left right) ≤ bound) :
    chance (fun outcome => ∃ left ∈ indices, ∃ right ∈ indices, left ≠ right ∧
      clash left right outcome) ≤ indices.card.choose 2 * bound := by
  classical
  calc
    _ ≤ chance fun outcome => ∃ pair ∈ indices.powersetCard 2, ∃ left ∈ pair, ∃ right ∈ pair,
          left ≠ right ∧ clash left right outcome := by
      apply chance_mono
      rintro outcome ⟨left, leftIn, right, rightIn, different, clashes⟩
      refine ⟨{left, right}, ?_, left, by simp, right, by simp, different, clashes⟩
      rw [Finset.mem_powersetCard]
      exact ⟨Finset.insert_subset leftIn (Finset.singleton_subset_iff.mpr rightIn),
        Finset.card_pair different⟩
    _ ≤ ∑ pair ∈ indices.powersetCard 2, chance fun outcome => ∃ left ∈ pair, ∃ right ∈ pair,
          left ≠ right ∧ clash left right outcome :=
      chance_exists_le _ _
    _ ≤ (indices.powersetCard 2).card • bound := by
      apply Finset.sum_le_card_nsmul
      intro pair member
      obtain ⟨inside, two⟩ := Finset.mem_powersetCard.mp member
      obtain ⟨first, second, different, rfl⟩ := Finset.card_eq_two.mp two
      refine le_trans (chance_mono ?_) (each first (inside (by simp)) second (inside (by simp))
        different)
      rintro outcome ⟨left, leftIn, right, rightIn, apart, clashes⟩
      rw [Finset.mem_insert, Finset.mem_singleton] at leftIn rightIn
      rcases leftIn with rfl | rfl <;> rcases rightIn with rfl | rfl
      · exact absurd rfl apart
      · exact clashes
      · exact symmetric _ _ _ clashes
      · exact absurd rfl apart
    _ = indices.card.choose 2 * bound := by
      rw [Finset.card_powersetCard, nsmul_eq_mul]

/-- Two different members of one of finitely many groups clash. -/
theorem chance_exists_group_le {Index Group : Type*} {groups : Finset Group}
    {members : Group → Finset Index} {clash : Group → Index → Index → Outcome → Prop}
    (symmetric : ∀ group left right outcome,
      clash group left right outcome → clash group right left outcome)
    {bound : Group → ℚ}
    (each : ∀ group ∈ groups, ∀ left ∈ members group, ∀ right ∈ members group, left ≠ right →
      chance (clash group left right) ≤ bound group) :
    chance (fun outcome => ∃ group ∈ groups, ∃ left ∈ members group, ∃ right ∈ members group,
        left ≠ right ∧ clash group left right outcome) ≤
      ∑ group ∈ groups, (members group).card.choose 2 * bound group := by
  refine (chance_exists_le groups _).trans (Finset.sum_le_sum fun group member => ?_)
  exact chance_exists_pair_le (symmetric group) (each group member)

end Events

/-! ## Parts of an outcome -/

/-- An event that depends on one part of the outcome has the chance it has in that part. -/
theorem chance_part {Outcome Part Rest : Type*} [Finite Rest] [Nonempty Rest]
    (parts : Outcome ≃ Part × Rest) (event : Part → Prop) :
    chance (fun outcome => event (parts outcome).1) = chance event := by
  have outcomes : Nat.card Outcome = Nat.card Part * Nat.card Rest := by
    rw [Nat.card_congr parts, Nat.card_prod]
  have happens : {outcome | event (parts outcome).1}.ncard =
      {part | event part}.ncard * Nat.card Rest := by
    have split : {outcome // event (parts outcome).1} ≃ {part // event part} × Rest :=
      (parts.subtypeEquiv fun _ => Iff.rfl).trans Equiv.prodSubtypeFstEquivSubtypeProd
    rw [← Nat.card_coe_set_eq, ← Nat.card_coe_set_eq, ← Nat.card_prod]
    exact Nat.card_congr split
  have positive : (Nat.card Rest : ℚ) ≠ 0 := Nat.cast_ne_zero.mpr Nat.card_pos.ne'
  unfold chance
  rw [happens, outcomes, Nat.cast_mul, Nat.cast_mul, mul_div_mul_right _ _ positive]

section Draws

variable {Index Value : Type*} [Finite Index] [Finite Value]

/-- Two draws of a family, and the others. -/
def splitDraws [DecidableEq Index] {first second : Index} (different : first ≠ second) :
    (Index → Value) ≃ (Value × Value) ×
      ({index : {index // index ≠ second} // index ≠ ⟨first, different⟩} → Value) :=
  ((Equiv.funSplitAt second Value).trans ((Equiv.prodComm _ _).trans
    ((Equiv.funSplitAt ⟨first, different⟩ Value).prodCongr (Equiv.refl Value)))).trans
      ⟨fun split => ((split.1.1, split.2), split.1.2), fun split => ((split.1.1, split.2), split.1.2),
        fun _ => rfl, fun _ => rfl⟩

/-- Related pairs, counted by their first value. -/
theorem ncard_related [Fintype Value] (related : Value → Value → Prop) :
    {pair : Value × Value | related pair.1 pair.2}.ncard =
      ∑ value, {other | related value other}.ncard := by
  have split := Nat.card_congr (Equiv.subtypeProdEquivSigmaSubtype related)
  rw [Nat.card_sigma] at split
  exact (Nat.card_coe_set_eq _).symm.trans split

variable [Nonempty Value]

/-- Two different draws are independent. -/
theorem chance_two_draws {first second : Index} (different : first ≠ second)
    (related : Value → Value → Prop) :
    chance (fun draws : Index → Value => related (draws first) (draws second)) =
      chance fun pair : Value × Value => related pair.1 pair.2 := by
  classical
  exact chance_part (splitDraws different) fun pair => related pair.1 pair.2

/-- Every value is related to few. -/
theorem chance_related_le {related : Value → Value → Prop} {few : Nat}
    (each : ∀ value, {other | related value other}.ncard ≤ few) :
    chance (fun pair : Value × Value => related pair.1 pair.2) ≤ few / Nat.card Value := by
  have := Fintype.ofFinite Value
  have counted : {pair : Value × Value | related pair.1 pair.2}.ncard ≤ Nat.card Value * few := by
    rw [ncard_related]
    calc
      _ ≤ ∑ _value : Value, few := Finset.sum_le_sum fun value _ => each value
      _ = Nat.card Value * few := by
        rw [Finset.sum_const, Finset.card_univ, smul_eq_mul, Nat.card_eq_fintype_card]
  have positive : (0 : ℚ) < Nat.card Value := Nat.cast_pos.mpr Nat.card_pos
  unfold chance
  rw [Nat.card_prod, Nat.cast_mul, ← div_div]
  gcongr
  rw [div_le_iff₀ positive, mul_comm]
  exact_mod_cast counted

end Draws

/-! ## Machine words -/

section Words

variable {width bits : Nat}

instance finite_bitVec : Finite (BitVec width) := Finite.of_equiv _ BitVec.equivFin.toEquiv.symm

def lowBits (bits : Nat) (word : BitVec width) : Fin (2 ^ bits) :=
  ⟨word.toNat % 2 ^ bits, Nat.mod_lt _ (Nat.two_pow_pos bits)⟩

/-- The low bits of a word, and the others. -/
def splitWord (fits : bits ≤ width) :
    BitVec width ≃ Fin (2 ^ bits) × Fin (2 ^ (width - bits)) :=
  have size : 2 ^ width = 2 ^ (width - bits) * 2 ^ bits := by
    rw [← Nat.pow_add, Nat.sub_add_cancel fits]
  BitVec.equivFin.toEquiv.trans ((finCongr size).trans
    (finProdFinEquiv.symm.trans (Equiv.prodComm _ _)))

/-- The low bits of a pair of words are a pair of independent draws. -/
theorem chance_low_bits (fits : bits ≤ width) (related : Fin (2 ^ bits) → Fin (2 ^ bits) → Prop) :
    chance (fun pair : BitVec width × BitVec width =>
        related (lowBits bits pair.1) (lowBits bits pair.2)) =
      chance fun pair : Fin (2 ^ bits) × Fin (2 ^ bits) => related pair.1 pair.2 :=
  chance_part (((splitWord fits).prodCongr (splitWord fits)).trans (Equiv.prodProdProdComm _ _ _ _))
    fun pair => related pair.1 pair.2

/-- Two different draws are related in their low bits, where every value is related to few. -/
theorem chance_low_bits_le {Index : Type*} [Finite Index] {first second : Index}
    (different : first ≠ second) (fits : bits ≤ width)
    {related : Fin (2 ^ bits) → Fin (2 ^ bits) → Prop} {few : Nat}
    (each : ∀ value, {other | related value other}.ncard ≤ few) :
    chance (fun draws : Index → BitVec width =>
      related (lowBits bits (draws first)) (lowBits bits (draws second))) ≤ few / 2 ^ bits := by
  have independent := chance_two_draws different fun left right : BitVec width =>
    related (lowBits bits left) (lowBits bits right)
  rw [independent, chance_low_bits fits]
  refine (chance_related_le each).trans_eq ?_
  rw [Nat.card_fin, Nat.cast_pow, Nat.cast_ofNat]

end Words

end Ferroid.Library
