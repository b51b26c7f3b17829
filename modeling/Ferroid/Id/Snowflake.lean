import Ferroid.Library.BitField

/-!
Contract: the `define_snowflake_id!` layouts and the `SnowflakeId` trait.

Owns the compile-time layout check, the packed representation, the field
accessors, `from_components` with its masks, and the provided trait methods
(`has_sequence_room`, `increment_sequence`, `rollover_to_timestamp`) in release
semantics: `debug_assert!` is compiled out and `+` wraps.

Does not own the generators or the Base32 text form.
-/

namespace Ferroid.Id

open Ferroid.Library.BitField

/-! ## Layout -/

/-- A bit split that `define_snowflake_id!` accepts over a backing integer of
`width` bits. `total` is the macro's compile-time assertion. `timestamp_lt`
holds because the constant `(1 << TIMESTAMP_BITS) - 1` is rejected at compile
time when the shift reaches the width. -/
structure SnowflakeLayout where
  width : Nat
  reservedBits : Nat
  timestampBits : Nat
  machineIdBits : Nat
  sequenceBits : Nat
  total : reservedBits + timestampBits + machineIdBits + sequenceBits = width
  timestamp_pos : 1 ≤ timestampBits
  timestamp_lt : timestampBits < width
deriving DecidableEq, Repr

namespace SnowflakeLayout

variable (layout : SnowflakeLayout)

/-- The backing integer `Id::Ty`. -/
abbrev Ty := BitVec layout.width

def sequenceShift (_ : SnowflakeLayout) : Nat := 0

def machineIdShift : Nat := layout.sequenceShift + layout.sequenceBits

def timestampShift : Nat := layout.machineIdShift + layout.machineIdBits

def reservedShift : Nat := layout.timestampShift + layout.timestampBits

def timestampMask : layout.Ty := lowMask layout.width layout.timestampBits

def machineIdMask : layout.Ty := lowMask layout.width layout.machineIdBits

def sequenceMask : layout.Ty := lowMask layout.width layout.sequenceBits

def validMask : layout.Ty :=
  (layout.timestampMask <<< layout.timestampShift) |||
    (layout.machineIdMask <<< layout.machineIdShift) |||
    (layout.sequenceMask <<< layout.sequenceShift)

def maxTimestamp : layout.Ty := layout.timestampMask

def maxMachineId : layout.Ty := layout.machineIdMask

def maxSequence : layout.Ty := layout.sequenceMask

variable {layout}

theorem width_pos : 0 < layout.width :=
  Nat.lt_of_le_of_lt (Nat.zero_le _) layout.timestamp_lt

theorem machineId_lt : layout.machineIdBits < layout.width := by
  have total := layout.total
  have positive := layout.timestamp_pos
  omega

theorem sequence_lt : layout.sequenceBits < layout.width := by
  have total := layout.total
  have positive := layout.timestamp_pos
  omega

theorem toNat_maxTimestamp : layout.maxTimestamp.toNat = 2 ^ layout.timestampBits - 1 :=
  toNat_lowMask layout.timestamp_lt

theorem toNat_maxMachineId : layout.maxMachineId.toNat = 2 ^ layout.machineIdBits - 1 :=
  toNat_lowMask machineId_lt

theorem toNat_maxSequence : layout.maxSequence.toNat = 2 ^ layout.sequenceBits - 1 :=
  toNat_lowMask sequence_lt

theorem le_maxTimestamp_iff (value : layout.Ty) :
    value ≤ layout.maxTimestamp ↔ value.toNat < 2 ^ layout.timestampBits := by
  have positive := Nat.two_pow_pos layout.timestampBits
  rw [BitVec.le_def, toNat_maxTimestamp]
  omega

theorem le_maxMachineId_iff (value : layout.Ty) :
    value ≤ layout.maxMachineId ↔ value.toNat < 2 ^ layout.machineIdBits := by
  have positive := Nat.two_pow_pos layout.machineIdBits
  rw [BitVec.le_def, toNat_maxMachineId]
  omega

theorem le_maxSequence_iff (value : layout.Ty) :
    value ≤ layout.maxSequence ↔ value.toNat < 2 ^ layout.sequenceBits := by
  have positive := Nat.two_pow_pos layout.sequenceBits
  rw [BitVec.le_def, toNat_maxSequence]
  omega

end SnowflakeLayout

/-! ## Packed IDs -/

/-- The `#[repr(transparent)]` wrapper a layout defines. -/
@[ext]
structure SnowflakeId (layout : SnowflakeLayout) where
  id : layout.Ty
deriving DecidableEq, Repr

namespace SnowflakeId

variable {layout : SnowflakeLayout}

def toRaw (self : SnowflakeId layout) : layout.Ty := self.id

def fromRaw (raw : layout.Ty) : SnowflakeId layout := ⟨raw⟩

/-- The derived order compares the packed integers. -/
instance : LT (SnowflakeId layout) := ⟨fun left right => left.id < right.id⟩

instance : DecidableLT (SnowflakeId layout) :=
  fun left right => inferInstanceAs (Decidable (left.id < right.id))

def fromComponents (timestamp machineId sequence : layout.Ty) : SnowflakeId layout :=
  let t := (timestamp &&& layout.timestampMask) <<< layout.timestampShift
  let m := (machineId &&& layout.machineIdMask) <<< layout.machineIdShift
  let s := (sequence &&& layout.sequenceMask) <<< layout.sequenceShift
  ⟨t ||| m ||| s⟩

def timestamp (self : SnowflakeId layout) : layout.Ty :=
  (self.id >>> layout.timestampShift) &&& layout.timestampMask

def machineId (self : SnowflakeId layout) : layout.Ty :=
  (self.id >>> layout.machineIdShift) &&& layout.machineIdMask

def sequence (self : SnowflakeId layout) : layout.Ty :=
  (self.id >>> layout.sequenceShift) &&& layout.sequenceMask

def hasSequenceRoom (self : SnowflakeId layout) : Bool :=
  self.sequence < layout.maxSequence

def nextSequence (self : SnowflakeId layout) : layout.Ty :=
  self.sequence + 1#(layout.width)

def incrementSequence (self : SnowflakeId layout) : SnowflakeId layout :=
  fromComponents self.timestamp self.machineId self.nextSequence

def rolloverToTimestamp (self : SnowflakeId layout) (ts : layout.Ty) : SnowflakeId layout :=
  fromComponents ts self.machineId 0#(layout.width)

def isValid (self : SnowflakeId layout) : Bool :=
  self.toRaw &&& ~~~layout.validMask == 0#(layout.width)

def intoValid (self : SnowflakeId layout) : SnowflakeId layout :=
  fromRaw (self.toRaw &&& layout.validMask)

/-- The bits above the timestamp field. -/
def reserved (self : SnowflakeId layout) : layout.Ty :=
  self.id >>> layout.reservedShift

theorem lt_def (left right : SnowflakeId layout) :
    left < right ↔ left.id.toNat < right.id.toNat :=
  Iff.rfl

instance : Trans (fun left right : SnowflakeId layout => left < right)
    (fun left right => left < right) (fun left right => left < right) :=
  ⟨fun first second => Nat.lt_trans first second⟩

theorem ne_of_lt {left right : SnowflakeId layout} (less : left < right) : left ≠ right := by
  rintro rfl
  exact Nat.lt_irrefl _ less

/-! ## Fields as digits -/

/-- Mixed-radix value of three fields. -/
def packed (layout : SnowflakeLayout) (timestamp machineId sequence : Nat) : Nat :=
  (timestamp * 2 ^ layout.machineIdBits + machineId) * 2 ^ layout.sequenceBits + sequence

theorem timestampShift_eq (layout : SnowflakeLayout) :
    layout.timestampShift = layout.machineIdBits + layout.sequenceBits := by
  simp only [SnowflakeLayout.timestampShift, SnowflakeLayout.machineIdShift,
    SnowflakeLayout.sequenceShift]
  omega

theorem machineIdShift_eq (layout : SnowflakeLayout) :
    layout.machineIdShift = layout.sequenceBits :=
  Nat.zero_add _

theorem toNat_fromComponents (timestamp machineId sequence : layout.Ty) :
    (fromComponents timestamp machineId sequence).id.toNat =
      packed layout (timestamp.toNat % 2 ^ layout.timestampBits)
        (machineId.toNat % 2 ^ layout.machineIdBits)
        (sequence.toNat % 2 ^ layout.sequenceBits) := by
  have total := layout.total
  have timestampShift := timestampShift_eq layout
  have machineIdShift := machineIdShift_eq layout
  have timestampValue := toNat_and_lowMask_shiftLeft layout.timestamp_lt
    layout.timestampShift (by omega) timestamp
  have machineValue := toNat_and_lowMask_shiftLeft SnowflakeLayout.machineId_lt
    layout.machineIdShift (by omega) machineId
  have sequenceValue := toNat_and_lowMask_shiftLeft SnowflakeLayout.sequence_lt
    layout.sequenceShift (by simp only [SnowflakeLayout.sequenceShift]; omega) sequence
  rw [SnowflakeLayout.sequenceShift, Nat.pow_zero, Nat.mul_one] at sequenceValue
  have sequenceSmall := Nat.mod_lt sequence.toNat (Nat.two_pow_pos layout.sequenceBits)
  have machineSmall := Nat.mod_lt machineId.toNat (Nat.two_pow_pos layout.machineIdBits)
  -- The upper two fields overlap nowhere: the machine field ends below the timestamp shift.
  have upper := toNat_or_of_disjoint layout.timestampShift _ timestampValue
    (by
      rw [machineValue, timestampShift, machineIdShift, Nat.pow_add]
      exact Nat.mul_lt_mul_of_pos_right machineSmall (Nat.two_pow_pos _))
  have upperValue :
      ((timestamp &&& layout.timestampMask) <<< layout.timestampShift |||
          (machineId &&& layout.machineIdMask) <<< layout.machineIdShift).toNat =
        (timestamp.toNat % 2 ^ layout.timestampBits * 2 ^ layout.machineIdBits +
          machineId.toNat % 2 ^ layout.machineIdBits) * 2 ^ layout.sequenceBits := by
    apply upper.trans
    rw [machineValue, timestampShift, machineIdShift, Nat.pow_add]
    ring
  have whole := toNat_or_of_disjoint layout.sequenceBits _ upperValue
    (lt_of_eq_of_lt sequenceValue sequenceSmall)
  rw [sequenceValue] at whole
  exact whole

/-! ### Accessors -/

theorem toNat_timestamp (self : SnowflakeId layout) :
    self.timestamp.toNat =
      self.id.toNat / 2 ^ (layout.machineIdBits + layout.sequenceBits) %
        2 ^ layout.timestampBits := by
  rw [timestamp, SnowflakeLayout.timestampMask,
    toNat_ushiftRight_and_lowMask layout.timestamp_lt, timestampShift_eq]

theorem toNat_machineId (self : SnowflakeId layout) :
    self.machineId.toNat =
      self.id.toNat / 2 ^ layout.sequenceBits % 2 ^ layout.machineIdBits := by
  rw [machineId, SnowflakeLayout.machineIdMask,
    toNat_ushiftRight_and_lowMask SnowflakeLayout.machineId_lt, machineIdShift_eq]

theorem toNat_sequence (self : SnowflakeId layout) :
    self.sequence.toNat = self.id.toNat % 2 ^ layout.sequenceBits := by
  rw [sequence, SnowflakeLayout.sequenceMask,
    toNat_ushiftRight_and_lowMask SnowflakeLayout.sequence_lt,
    SnowflakeLayout.sequenceShift, Nat.pow_zero, Nat.div_one]

theorem timestamp_lt (self : SnowflakeId layout) :
    self.timestamp.toNat < 2 ^ layout.timestampBits := by
  rw [toNat_timestamp]
  exact Nat.mod_lt _ (Nat.two_pow_pos _)

theorem machineId_lt (self : SnowflakeId layout) :
    self.machineId.toNat < 2 ^ layout.machineIdBits := by
  rw [toNat_machineId]
  exact Nat.mod_lt _ (Nat.two_pow_pos _)

theorem sequence_lt (self : SnowflakeId layout) :
    self.sequence.toNat < 2 ^ layout.sequenceBits := by
  rw [toNat_sequence]
  exact Nat.mod_lt _ (Nat.two_pow_pos _)

/-- `from_components` stores every field modulo its size: this is the whole
effect of the masks in a release build. -/
theorem fields_fromComponents (timestamp machineId sequence : layout.Ty) :
    (fromComponents timestamp machineId sequence).timestamp.toNat =
        timestamp.toNat % 2 ^ layout.timestampBits ∧
      (fromComponents timestamp machineId sequence).machineId.toNat =
        machineId.toNat % 2 ^ layout.machineIdBits ∧
      (fromComponents timestamp machineId sequence).sequence.toNat =
        sequence.toNat % 2 ^ layout.sequenceBits := by
  have timestampSmall := Nat.mod_lt timestamp.toNat (Nat.two_pow_pos layout.timestampBits)
  have machineSmall := Nat.mod_lt machineId.toNat (Nat.two_pow_pos layout.machineIdBits)
  have sequenceSmall := Nat.mod_lt sequence.toNat (Nat.two_pow_pos layout.sequenceBits)
  rw [toNat_timestamp, toNat_machineId, toNat_sequence, toNat_fromComponents, packed,
    Nat.add_comm layout.machineIdBits, Nat.pow_add, ← Nat.div_div_eq_div_mul,
    digit_div sequenceSmall, digit_mod sequenceSmall, digit_div machineSmall,
    digit_mod machineSmall, Nat.mod_eq_of_lt timestampSmall]
  exact ⟨rfl, rfl, rfl⟩

/-! ### Validity -/

theorem packed_lt {timestamp machineId sequence : Nat}
    (timestampSmall : timestamp < 2 ^ layout.timestampBits)
    (machineSmall : machineId < 2 ^ layout.machineIdBits)
    (sequenceSmall : sequence < 2 ^ layout.sequenceBits) :
    packed layout timestamp machineId sequence <
      2 ^ (layout.timestampBits + layout.machineIdBits + layout.sequenceBits) :=
  digit_lt_pow (digit_lt_pow timestampSmall machineSmall) sequenceSmall

theorem toNat_validMask :
    layout.validMask.toNat =
      2 ^ (layout.timestampBits + layout.machineIdBits + layout.sequenceBits) - 1 := by
  -- The mask is the packed word of the three largest field values.
  have asComponents : layout.validMask =
      (fromComponents layout.timestampMask layout.machineIdMask layout.sequenceMask).id := by
    simp only [SnowflakeLayout.validMask, fromComponents, BitVec.and_self]
  have below (bits : Nat) : 2 ^ bits - 1 < 2 ^ bits :=
    Nat.sub_lt (Nat.two_pow_pos bits) Nat.one_pos
  have timestampValue : layout.timestampMask.toNat = _ := SnowflakeLayout.toNat_maxTimestamp
  have machineValue : layout.machineIdMask.toNat = _ := SnowflakeLayout.toNat_maxMachineId
  have sequenceValue : layout.sequenceMask.toNat = _ := SnowflakeLayout.toNat_maxSequence
  rw [asComponents, toNat_fromComponents, timestampValue, machineValue, sequenceValue,
    Nat.mod_eq_of_lt (below _), Nat.mod_eq_of_lt (below _), Nat.mod_eq_of_lt (below _),
    packed, digit_ones, digit_ones]

/-- `is_valid` says exactly that no reserved bit is set. -/
theorem isValid_iff (self : SnowflakeId layout) :
    self.isValid = true ↔
      self.id.toNat <
        2 ^ (layout.timestampBits + layout.machineIdBits + layout.sequenceBits) := by
  rw [isValid, beq_iff_eq, toRaw, and_not_eq_zero_iff_lt toNat_validMask]

theorem isValid_fromComponents (timestamp machineId sequence : layout.Ty) :
    (fromComponents timestamp machineId sequence).isValid = true := by
  rw [isValid_iff, toNat_fromComponents]
  exact packed_lt (Nat.mod_lt _ (Nat.two_pow_pos _)) (Nat.mod_lt _ (Nat.two_pow_pos _))
    (Nat.mod_lt _ (Nat.two_pow_pos _))

theorem reserved_eq_zero (self : SnowflakeId layout) (valid : self.isValid = true) :
    self.reserved = 0#(layout.width) := by
  have shiftEq : layout.reservedShift =
      layout.timestampBits + layout.machineIdBits + layout.sequenceBits := by
    rw [SnowflakeLayout.reservedShift, timestampShift_eq]
    omega
  rw [isValid_iff] at valid
  apply BitVec.eq_of_toNat_eq
  rw [reserved, BitVec.toNat_ushiftRight, shiftEq, Nat.shiftRight_eq_div_pow,
    Nat.div_eq_of_lt valid]
  rfl

/-- A valid ID is the packed word of its own fields. -/
theorem toNat_eq_packed (self : SnowflakeId layout) (valid : self.isValid = true) :
    self.id.toNat =
      packed layout self.timestamp.toNat self.machineId.toNat self.sequence.toNat := by
  rw [isValid_iff] at valid
  have leading :
      self.id.toNat / 2 ^ layout.sequenceBits / 2 ^ layout.machineIdBits <
        2 ^ layout.timestampBits := by
    rw [Nat.div_div_eq_div_mul, ← Nat.pow_add]
    apply Nat.div_lt_of_lt_mul
    rw [← Nat.pow_add]
    exact lt_of_lt_of_eq valid (by congr 1; omega)
  rw [packed, toNat_timestamp, toNat_machineId, toNat_sequence,
    Nat.add_comm layout.machineIdBits, Nat.pow_add, ← Nat.div_div_eq_div_mul,
    Nat.mod_eq_of_lt leading, Nat.div_add_mod', Nat.div_add_mod']

/-- Valid IDs compare lexicographically by timestamp, machine ID and sequence. -/
theorem lt_iff_of_isValid {left right : SnowflakeId layout}
    (leftValid : left.isValid = true) (rightValid : right.isValid = true) :
    left < right ↔
      left.timestamp.toNat < right.timestamp.toNat ∨
        left.timestamp.toNat = right.timestamp.toNat ∧
          (left.machineId.toNat < right.machineId.toNat ∨
            left.machineId.toNat = right.machineId.toNat ∧
              left.sequence.toNat < right.sequence.toNat) := by
  rw [lt_def, toNat_eq_packed left leftValid, toNat_eq_packed right rightValid, packed, packed,
    digit_lt_iff left.sequence_lt right.sequence_lt,
    digit_lt_iff left.machineId_lt right.machineId_lt]
  constructor
  · rintro ((less | ⟨equal, less⟩) | ⟨equal, less⟩)
    · exact Or.inl less
    · exact Or.inr ⟨equal, Or.inl less⟩
    · obtain ⟨sameTimestamp, sameMachine⟩ : left.timestamp.toNat = right.timestamp.toNat ∧
          left.machineId.toNat = right.machineId.toNat := by
        have quotient := congrArg (· / 2 ^ layout.machineIdBits) equal
        have remainder := congrArg (· % 2 ^ layout.machineIdBits) equal
        simp only [digit_div left.machineId_lt, digit_div right.machineId_lt] at quotient
        simp only [digit_mod left.machineId_lt, digit_mod right.machineId_lt] at remainder
        exact ⟨quotient, remainder⟩
      exact Or.inr ⟨sameTimestamp, Or.inr ⟨sameMachine, less⟩⟩
  · rintro (less | ⟨sameTimestamp, less | ⟨sameMachine, less⟩⟩)
    · exact Or.inl (Or.inl less)
    · exact Or.inl (Or.inr ⟨sameTimestamp, less⟩)
    · exact Or.inr ⟨by rw [sameTimestamp, sameMachine], less⟩

/-- A valid ID is rebuilt from its own fields. -/
theorem fromComponents_fields (self : SnowflakeId layout) (valid : self.isValid = true) :
    fromComponents self.timestamp self.machineId self.sequence = self := by
  apply SnowflakeId.ext
  apply BitVec.eq_of_toNat_eq
  rw [toNat_fromComponents, Nat.mod_eq_of_lt self.timestamp_lt,
    Nat.mod_eq_of_lt self.machineId_lt, Nat.mod_eq_of_lt self.sequence_lt,
    ← toNat_eq_packed self valid]

/-! ### Clearing reserved bits -/

theorem toNat_intoValid (self : SnowflakeId layout) :
    self.intoValid.id.toNat =
      self.id.toNat %
        2 ^ (layout.timestampBits + layout.machineIdBits + layout.sequenceBits) := by
  show (self.id &&& layout.validMask).toNat = _
  rw [BitVec.toNat_and, toNat_validMask, Nat.and_two_pow_sub_one_eq_mod]

theorem isValid_intoValid (self : SnowflakeId layout) : self.intoValid.isValid = true := by
  rw [isValid_iff, toNat_intoValid]
  exact Nat.mod_lt _ (Nat.two_pow_pos _)

theorem intoValid_of_isValid (self : SnowflakeId layout) (valid : self.isValid = true) :
    self.intoValid = self := by
  rw [isValid_iff] at valid
  apply SnowflakeId.ext
  apply BitVec.eq_of_toNat_eq
  rw [toNat_intoValid, Nat.mod_eq_of_lt valid]

/-- Clearing reserved bits leaves every accessor's result alone. -/
theorem fields_intoValid (self : SnowflakeId layout) :
    self.intoValid.timestamp = self.timestamp ∧ self.intoValid.machineId = self.machineId ∧
      self.intoValid.sequence = self.sequence := by
  refine ⟨BitVec.eq_of_toNat_eq ?_, BitVec.eq_of_toNat_eq ?_, BitVec.eq_of_toNat_eq ?_⟩
  · rw [toNat_timestamp, toNat_timestamp, toNat_intoValid, field_mod (by omega)]
  · rw [toNat_machineId, toNat_machineId, toNat_intoValid, field_mod (by omega)]
  · have room : 0 + layout.sequenceBits ≤
        layout.timestampBits + layout.machineIdBits + layout.sequenceBits := by
      omega
    have lowest := field_mod room self.id.toNat
    rw [Nat.pow_zero, Nat.div_one, Nat.div_one] at lowest
    rw [toNat_sequence, toNat_sequence, toNat_intoValid, lowest]

/-! ### Trait methods -/

theorem hasSequenceRoom_iff (self : SnowflakeId layout) :
    self.hasSequenceRoom = true ↔ self.sequence.toNat + 1 < 2 ^ layout.sequenceBits := by
  have positive := Nat.two_pow_pos layout.sequenceBits
  rw [hasSequenceRoom, decide_eq_true_iff, BitVec.lt_def, SnowflakeLayout.toNat_maxSequence]
  omega

theorem hasSequenceRoom_eq_false_iff (self : SnowflakeId layout) :
    self.hasSequenceRoom = false ↔ self.sequence = layout.maxSequence := by
  have bound := self.sequence_lt
  rw [← Bool.not_eq_true, hasSequenceRoom_iff, ← BitVec.toNat_inj,
    SnowflakeLayout.toNat_maxSequence]
  omega

/-- With room, incrementing changes the sequence field only: the carry stays
inside the field. -/
theorem fields_incrementSequence (self : SnowflakeId layout)
    (room : self.hasSequenceRoom = true) :
    self.incrementSequence.timestamp = self.timestamp ∧
      self.incrementSequence.machineId = self.machineId ∧
      self.incrementSequence.sequence.toNat = self.sequence.toNat + 1 := by
  rw [hasSequenceRoom_iff] at room
  have fieldFits : 2 ^ layout.sequenceBits ≤ 2 ^ layout.width :=
    Nat.pow_le_pow_right (by decide) SnowflakeLayout.sequence_lt.le
  have oneFits : 1 < 2 ^ layout.width := Nat.one_lt_two_pow SnowflakeLayout.width_pos.ne'
  have next : self.nextSequence.toNat = self.sequence.toNat + 1 := by
    rw [nextSequence, BitVec.toNat_add, BitVec.toNat_ofNat, Nat.mod_eq_of_lt oneFits]
    exact Nat.mod_eq_of_lt (by omega)
  obtain ⟨timestampField, machineField, sequenceField⟩ :=
    fields_fromComponents self.timestamp self.machineId self.nextSequence
  refine ⟨BitVec.eq_of_toNat_eq ?_, BitVec.eq_of_toNat_eq ?_, ?_⟩
  · rw [incrementSequence, timestampField, Nat.mod_eq_of_lt self.timestamp_lt]
  · rw [incrementSequence, machineField, Nat.mod_eq_of_lt self.machineId_lt]
  · rw [incrementSequence, sequenceField, next, Nat.mod_eq_of_lt room]

/-- Rolling over masks the new timestamp, keeps the machine ID and restarts the
sequence, for every reading. -/
theorem fields_rolloverToTimestamp (self : SnowflakeId layout) (ts : layout.Ty) :
    (self.rolloverToTimestamp ts).timestamp.toNat = ts.toNat % 2 ^ layout.timestampBits ∧
      (self.rolloverToTimestamp ts).machineId = self.machineId ∧
      (self.rolloverToTimestamp ts).sequence.toNat = 0 := by
  obtain ⟨timestampField, machineField, sequenceField⟩ :=
    fields_fromComponents ts self.machineId 0#(layout.width)
  refine ⟨timestampField, BitVec.eq_of_toNat_eq ?_, ?_⟩
  · rw [rolloverToTimestamp, machineField, Nat.mod_eq_of_lt self.machineId_lt]
  · rw [rolloverToTimestamp, sequenceField, BitVec.toNat_zero, Nat.zero_mod]

theorem isValid_incrementSequence (self : SnowflakeId layout) :
    self.incrementSequence.isValid = true :=
  isValid_fromComponents _ _ _

theorem isValid_rolloverToTimestamp (self : SnowflakeId layout) (ts : layout.Ty) :
    (self.rolloverToTimestamp ts).isValid = true :=
  isValid_fromComponents _ _ _

end SnowflakeId

/-! ## The layouts the crate defines -/

def SnowflakeTwitterId : SnowflakeLayout :=
  ⟨64, 1, 41, 10, 12, rfl, by decide, by decide⟩

def SnowflakeDiscordId : SnowflakeLayout :=
  ⟨64, 0, 42, 10, 12, rfl, by decide, by decide⟩

def SnowflakeMastodonId : SnowflakeLayout :=
  ⟨64, 0, 48, 0, 16, rfl, by decide, by decide⟩

def SnowflakeInstagramId : SnowflakeLayout :=
  ⟨64, 0, 41, 13, 10, rfl, by decide, by decide⟩

end Ferroid.Id
