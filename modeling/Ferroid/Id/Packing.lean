import Mathlib.Data.Set.Function
import Ferroid.Id.Snowflake
import Ferroid.Id.Ulid

/-!
Contract: packing of components into raw values, for both ID families.

Owns what exact packing means for a tuple of components, and that every layout of
either family packs exactly.

Does not own the digit arithmetic of a layout (`Id.Snowflake`, `Id.Ulid`).
-/

namespace Ferroid.Id

/-! ## Exact packing -/

/-- Packing is a bijection between in-range component tuples and valid raw values
that keeps their order, and clearing reserved bits retracts all raw values onto
the valid ones without touching a component. -/
structure ExactPacking {Fields ID : Type} [LT ID] (InRange : Fields → Prop)
    (Less : Fields → Fields → Prop) (pack : Fields → ID) (fields : ID → Fields)
    (isValid : ID → Bool) (intoValid : ID → ID) : Prop where
  fields_pack : ∀ components, InRange components → fields (pack components) = components
  isValid_pack : ∀ components, InRange components → isValid (pack components) = true
  pack_fields : ∀ id, isValid id = true → pack (fields id) = id
  bijOn : Set.BijOn pack {components | InRange components} {id | isValid id = true}
  lt_iff : ∀ left right, isValid left = true → isValid right = true →
    (left < right ↔ Less (fields left) (fields right))
  isValid_intoValid : ∀ id, isValid (intoValid id) = true
  intoValid_intoValid : ∀ id, intoValid (intoValid id) = intoValid id
  intoValid_of_isValid : ∀ id, isValid id = true → intoValid id = id
  fields_intoValid : ∀ id, fields (intoValid id) = fields id

/-- Mutually inverse maps between the in-range tuples and the valid values. -/
theorem bijOn_pack {Fields ID : Type} {InRange : Fields → Prop} {pack : Fields → ID}
    {fields : ID → Fields} {isValid : ID → Bool}
    (fields_pack : ∀ components, InRange components → fields (pack components) = components)
    (isValid_pack : ∀ components, InRange components → isValid (pack components) = true)
    (pack_fields : ∀ id, isValid id = true → pack (fields id) = id)
    (inRange_fields : ∀ id, InRange (fields id)) :
    Set.BijOn pack {components | InRange components} {id | isValid id = true} := by
  refine ⟨isValid_pack, ?_, ?_⟩
  · intro left leftInRange right rightInRange same
    rw [← fields_pack left leftInRange, same, fields_pack right rightInRange]
  · intro id valid
    exact ⟨fields id, inRange_fields id, pack_fields id valid⟩

/-! ## Snowflakes -/

namespace SnowflakeId

variable (layout : SnowflakeLayout)

/-- Timestamp, machine ID and sequence. -/
abbrev Components := layout.Ty × layout.Ty × layout.Ty

/-- What the debug assertions of `from_components` ask of its arguments. -/
def InRange (components : Components layout) : Prop :=
  components.1 ≤ layout.maxTimestamp ∧ components.2.1 ≤ layout.maxMachineId ∧
    components.2.2 ≤ layout.maxSequence

def pack (components : Components layout) : SnowflakeId layout :=
  fromComponents components.1 components.2.1 components.2.2

variable {layout}

def components (self : SnowflakeId layout) : Components layout :=
  (self.timestamp, self.machineId, self.sequence)

theorem inRange_components (self : SnowflakeId layout) : InRange layout self.components :=
  ⟨(SnowflakeLayout.le_maxTimestamp_iff _).mpr self.timestamp_lt,
    (SnowflakeLayout.le_maxMachineId_iff _).mpr self.machineId_lt,
    (SnowflakeLayout.le_maxSequence_iff _).mpr self.sequence_lt⟩

theorem components_pack (given : Components layout) (inRange : InRange layout given) :
    (pack layout given).components = given := by
  obtain ⟨timestamp, machineId, sequence⟩ := given
  obtain ⟨timestampFits, machineFits, sequenceFits⟩ := inRange
  rw [SnowflakeLayout.le_maxTimestamp_iff] at timestampFits
  rw [SnowflakeLayout.le_maxMachineId_iff] at machineFits
  rw [SnowflakeLayout.le_maxSequence_iff] at sequenceFits
  obtain ⟨timestampField, machineField, sequenceField⟩ :=
    fields_fromComponents timestamp machineId sequence
  rw [Nat.mod_eq_of_lt timestampFits] at timestampField
  rw [Nat.mod_eq_of_lt machineFits] at machineField
  rw [Nat.mod_eq_of_lt sequenceFits] at sequenceField
  exact Prod.ext (BitVec.eq_of_toNat_eq timestampField)
    (Prod.ext (BitVec.eq_of_toNat_eq machineField) (BitVec.eq_of_toNat_eq sequenceField))

/-- The lexicographic order of the components. -/
def ComponentsLt : Components layout → Components layout → Prop :=
  Prod.Lex (· < ·) (Prod.Lex (· < ·) (· < ·))

theorem lt_iff_components (left right : SnowflakeId layout) (leftValid : left.isValid = true)
    (rightValid : right.isValid = true) :
    left < right ↔ ComponentsLt left.components right.components := by
  rw [lt_iff_of_isValid leftValid rightValid, ComponentsLt, Prod.lex_def, Prod.lex_def]
  simp only [components, BitVec.lt_def, BitVec.toNat_inj]

theorem exactPacking (layout : SnowflakeLayout) :
    ExactPacking (InRange layout) ComponentsLt (pack layout) components isValid intoValid where
  fields_pack := components_pack
  isValid_pack := fun _ _ => isValid_fromComponents _ _ _
  pack_fields := fromComponents_fields
  bijOn := bijOn_pack components_pack (fun _ _ => isValid_fromComponents _ _ _)
    fromComponents_fields inRange_components
  lt_iff := lt_iff_components
  isValid_intoValid := isValid_intoValid
  intoValid_intoValid := fun id => intoValid_of_isValid id.intoValid id.isValid_intoValid
  intoValid_of_isValid := intoValid_of_isValid
  fields_intoValid := by
    intro id
    obtain ⟨sameTimestamp, sameMachine, sameSequence⟩ := id.fields_intoValid
    rw [components, sameTimestamp, sameMachine, sameSequence]
    rfl

end SnowflakeId

/-! ## ULIDs -/

namespace UlidId

variable (layout : UlidLayout)

/-- Timestamp and random field. -/
abbrev Components := layout.Ty × layout.Ty

def InRange (components : Components layout) : Prop :=
  components.1 ≤ layout.maxTimestamp ∧ components.2 ≤ layout.maxRandom

def pack (components : Components layout) : UlidId layout :=
  fromComponents components.1 components.2

variable {layout}

def components (self : UlidId layout) : Components layout :=
  (self.timestamp, self.random)

theorem inRange_components (self : UlidId layout) : InRange layout self.components :=
  ⟨(UlidLayout.le_maxTimestamp_iff _).mpr self.timestamp_lt,
    (UlidLayout.le_maxRandom_iff _).mpr self.random_lt⟩

theorem components_pack (given : Components layout) (inRange : InRange layout given) :
    (pack layout given).components = given := by
  obtain ⟨timestamp, random⟩ := given
  obtain ⟨timestampFits, randomFits⟩ := inRange
  rw [UlidLayout.le_maxTimestamp_iff] at timestampFits
  rw [UlidLayout.le_maxRandom_iff] at randomFits
  obtain ⟨timestampField, randomField⟩ := fields_fromComponents timestamp random
  rw [Nat.mod_eq_of_lt timestampFits] at timestampField
  rw [Nat.mod_eq_of_lt randomFits] at randomField
  exact Prod.ext (BitVec.eq_of_toNat_eq timestampField) (BitVec.eq_of_toNat_eq randomField)

/-- The lexicographic order of the components. -/
def ComponentsLt : Components layout → Components layout → Prop :=
  Prod.Lex (· < ·) (· < ·)

theorem lt_iff_components (left right : UlidId layout) (leftValid : left.isValid = true)
    (rightValid : right.isValid = true) :
    left < right ↔ ComponentsLt left.components right.components := by
  rw [lt_iff_of_isValid leftValid rightValid, ComponentsLt, Prod.lex_def]
  simp only [components, BitVec.lt_def, BitVec.toNat_inj]

theorem exactPacking (layout : UlidLayout) :
    ExactPacking (InRange layout) ComponentsLt (pack layout) components isValid intoValid where
  fields_pack := components_pack
  isValid_pack := fun _ _ => isValid_fromComponents _ _
  pack_fields := fromComponents_fields
  bijOn := bijOn_pack components_pack (fun _ _ => isValid_fromComponents _ _)
    fromComponents_fields inRange_components
  lt_iff := lt_iff_components
  isValid_intoValid := isValid_intoValid
  intoValid_intoValid := fun id => intoValid_of_isValid id.intoValid id.isValid_intoValid
  intoValid_of_isValid := intoValid_of_isValid
  fields_intoValid := by
    intro id
    obtain ⟨sameTimestamp, sameRandom⟩ := id.fields_intoValid
    rw [components, sameTimestamp, sameRandom]
    rfl

end UlidId

/-- Every bit split that `define_snowflake_id!` or `define_ulid!` accepts packs
exactly, zero-width fields and zero reserved bits included. -/
theorem packing_exact (snowflake : SnowflakeLayout) (ulid : UlidLayout) :
    ExactPacking (SnowflakeId.InRange snowflake) SnowflakeId.ComponentsLt
        (SnowflakeId.pack snowflake) SnowflakeId.components SnowflakeId.isValid
        SnowflakeId.intoValid ∧
      ExactPacking (UlidId.InRange ulid) UlidId.ComponentsLt (UlidId.pack ulid)
        UlidId.components UlidId.isValid UlidId.intoValid :=
  ⟨SnowflakeId.exactPacking snowflake, UlidId.exactPacking ulid⟩

end Ferroid.Id
