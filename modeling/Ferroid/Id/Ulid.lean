import Ferroid.Library.BitField

/-!
Contract: the `define_ulid!` layouts and the `UlidId` trait.

Owns the compile-time layout check, the packed representation, the field
accessors, `from_components` with its masks, and the provided trait methods
(`has_random_room`, `increment_random`, `rollover_to_timestamp`) in release
semantics.

Does not own the constructors that read the system clock, the generators, or
the Base32 text form.
-/

namespace Ferroid.Id

open Ferroid.Library.BitField

/-! ## Layout -/

/-- A bit split that `define_ulid!` accepts over a backing integer of `width`
bits. `total` is the macro's compile-time assertion. The other two hold because
the mask constants are rejected at compile time when their shift reaches the
width; a layout without timestamp bits is accepted. -/
structure UlidLayout where
  width : Nat
  reservedBits : Nat
  timestampBits : Nat
  randomBits : Nat
  total : reservedBits + timestampBits + randomBits = width
  timestamp_lt : timestampBits < width
  random_lt : randomBits < width
deriving Repr

namespace UlidLayout

variable (layout : UlidLayout)

/-- The backing integer `Id::Ty`. -/
abbrev Ty := BitVec layout.width

def randomShift (_ : UlidLayout) : Nat := 0

def timestampShift : Nat := layout.randomShift + layout.randomBits

def reservedShift : Nat := layout.timestampShift + layout.timestampBits

def timestampMask : layout.Ty := lowMask layout.width layout.timestampBits

def randomMask : layout.Ty := lowMask layout.width layout.randomBits

def validMask : layout.Ty :=
  (layout.timestampMask <<< layout.timestampShift) |||
    (layout.randomMask <<< layout.randomShift)

def maxTimestamp : layout.Ty := layout.timestampMask

def maxRandom : layout.Ty := layout.randomMask

variable {layout}

theorem width_pos : 0 < layout.width :=
  Nat.lt_of_le_of_lt (Nat.zero_le _) layout.timestamp_lt

theorem toNat_maxTimestamp : layout.maxTimestamp.toNat = 2 ^ layout.timestampBits - 1 :=
  toNat_lowMask layout.timestamp_lt

theorem toNat_maxRandom : layout.maxRandom.toNat = 2 ^ layout.randomBits - 1 :=
  toNat_lowMask layout.random_lt

theorem le_maxTimestamp_iff (value : layout.Ty) :
    value ≤ layout.maxTimestamp ↔ value.toNat < 2 ^ layout.timestampBits := by
  have positive := Nat.two_pow_pos layout.timestampBits
  rw [BitVec.le_def, toNat_maxTimestamp]
  omega

theorem le_maxRandom_iff (value : layout.Ty) :
    value ≤ layout.maxRandom ↔ value.toNat < 2 ^ layout.randomBits := by
  have positive := Nat.two_pow_pos layout.randomBits
  rw [BitVec.le_def, toNat_maxRandom]
  omega

end UlidLayout

/-! ## Packed IDs -/

/-- The `#[repr(transparent)]` wrapper a layout defines. -/
@[ext]
structure UlidId (layout : UlidLayout) where
  id : layout.Ty
deriving DecidableEq, Repr

namespace UlidId

variable {layout : UlidLayout}

def toRaw (self : UlidId layout) : layout.Ty := self.id

def fromRaw (raw : layout.Ty) : UlidId layout := ⟨raw⟩

/-- The derived order compares the packed integers. -/
instance : LT (UlidId layout) := ⟨fun left right => left.id < right.id⟩

instance : DecidableLT (UlidId layout) :=
  fun left right => inferInstanceAs (Decidable (left.id < right.id))

def fromComponents (timestamp random : layout.Ty) : UlidId layout :=
  let t := (timestamp &&& layout.timestampMask) <<< layout.timestampShift
  let r := (random &&& layout.randomMask) <<< layout.randomShift
  ⟨t ||| r⟩

def timestamp (self : UlidId layout) : layout.Ty :=
  (self.id >>> layout.timestampShift) &&& layout.timestampMask

def random (self : UlidId layout) : layout.Ty :=
  (self.id >>> layout.randomShift) &&& layout.randomMask

def hasRandomRoom (self : UlidId layout) : Bool :=
  self.random < layout.maxRandom

def nextRandom (self : UlidId layout) : layout.Ty :=
  self.random + 1#(layout.width)

def incrementRandom (self : UlidId layout) : UlidId layout :=
  fromComponents self.timestamp self.nextRandom

/-- The source's receiver is unused: the new ID depends on `ts` and `rand` only. -/
def rolloverToTimestamp (_ : UlidId layout) (ts rand : layout.Ty) : UlidId layout :=
  fromComponents ts rand

def isValid (self : UlidId layout) : Bool :=
  self.toRaw &&& ~~~layout.validMask == 0#(layout.width)

def intoValid (self : UlidId layout) : UlidId layout :=
  fromRaw (self.toRaw &&& layout.validMask)

/-- The bits above the timestamp field. -/
def reserved (self : UlidId layout) : layout.Ty :=
  self.id >>> layout.reservedShift

theorem lt_def (left right : UlidId layout) :
    left < right ↔ left.id.toNat < right.id.toNat :=
  Iff.rfl

instance : Trans (fun left right : UlidId layout => left < right)
    (fun left right => left < right) (fun left right => left < right) :=
  ⟨fun first second => Nat.lt_trans first second⟩

/-! ## Fields as digits -/

/-- Mixed-radix value of two fields. -/
def packed (layout : UlidLayout) (timestamp random : Nat) : Nat :=
  timestamp * 2 ^ layout.randomBits + random

theorem timestampShift_eq (layout : UlidLayout) :
    layout.timestampShift = layout.randomBits :=
  Nat.zero_add _

theorem toNat_fromComponents (timestamp random : layout.Ty) :
    (fromComponents timestamp random).id.toNat =
      packed layout (timestamp.toNat % 2 ^ layout.timestampBits)
        (random.toNat % 2 ^ layout.randomBits) := by
  have total := layout.total
  have timestampShift := timestampShift_eq layout
  have timestampValue := toNat_and_lowMask_shiftLeft layout.timestamp_lt
    layout.timestampShift (by omega) timestamp
  have randomValue := toNat_and_lowMask_shiftLeft layout.random_lt
    layout.randomShift (by simp only [UlidLayout.randomShift]; omega) random
  rw [UlidLayout.randomShift, Nat.pow_zero, Nat.mul_one] at randomValue
  have randomSmall := Nat.mod_lt random.toNat (Nat.two_pow_pos layout.randomBits)
  rw [timestampShift] at timestampValue
  have whole := toNat_or_of_disjoint layout.randomBits _ timestampValue
    (lt_of_eq_of_lt randomValue randomSmall)
  rw [randomValue] at whole
  unfold fromComponents
  simp only [timestampShift]
  exact whole

/-! ### Accessors -/

theorem toNat_timestamp (self : UlidId layout) :
    self.timestamp.toNat =
      self.id.toNat / 2 ^ layout.randomBits % 2 ^ layout.timestampBits := by
  rw [timestamp, UlidLayout.timestampMask,
    toNat_ushiftRight_and_lowMask layout.timestamp_lt, timestampShift_eq]

theorem toNat_random (self : UlidId layout) :
    self.random.toNat = self.id.toNat % 2 ^ layout.randomBits := by
  rw [random, UlidLayout.randomMask, toNat_ushiftRight_and_lowMask layout.random_lt,
    UlidLayout.randomShift, Nat.pow_zero, Nat.div_one]

theorem timestamp_lt (self : UlidId layout) :
    self.timestamp.toNat < 2 ^ layout.timestampBits := by
  rw [toNat_timestamp]
  exact Nat.mod_lt _ (Nat.two_pow_pos _)

theorem random_lt (self : UlidId layout) :
    self.random.toNat < 2 ^ layout.randomBits := by
  rw [toNat_random]
  exact Nat.mod_lt _ (Nat.two_pow_pos _)

/-- `from_components` stores both fields modulo their size. -/
theorem fields_fromComponents (timestamp random : layout.Ty) :
    (fromComponents timestamp random).timestamp.toNat =
        timestamp.toNat % 2 ^ layout.timestampBits ∧
      (fromComponents timestamp random).random.toNat =
        random.toNat % 2 ^ layout.randomBits := by
  have timestampSmall := Nat.mod_lt timestamp.toNat (Nat.two_pow_pos layout.timestampBits)
  have randomSmall := Nat.mod_lt random.toNat (Nat.two_pow_pos layout.randomBits)
  rw [toNat_timestamp, toNat_random, toNat_fromComponents, packed, digit_div randomSmall,
    digit_mod randomSmall, Nat.mod_eq_of_lt timestampSmall]
  exact ⟨rfl, rfl⟩

/-! ### Validity -/

theorem toNat_validMask :
    layout.validMask.toNat = 2 ^ (layout.timestampBits + layout.randomBits) - 1 := by
  have asComponents : layout.validMask =
      (fromComponents layout.timestampMask layout.randomMask).id := by
    simp only [UlidLayout.validMask, fromComponents, BitVec.and_self]
  have below (bits : Nat) : 2 ^ bits - 1 < 2 ^ bits :=
    Nat.sub_lt (Nat.two_pow_pos bits) Nat.one_pos
  have timestampValue : layout.timestampMask.toNat = _ := UlidLayout.toNat_maxTimestamp
  have randomValue : layout.randomMask.toNat = _ := UlidLayout.toNat_maxRandom
  rw [asComponents, toNat_fromComponents, timestampValue, randomValue,
    Nat.mod_eq_of_lt (below _), Nat.mod_eq_of_lt (below _), packed, digit_ones]

/-- `is_valid` says exactly that no reserved bit is set. -/
theorem isValid_iff (self : UlidId layout) :
    self.isValid = true ↔
      self.id.toNat < 2 ^ (layout.timestampBits + layout.randomBits) := by
  rw [isValid, beq_iff_eq, toRaw, and_not_eq_zero_iff_lt toNat_validMask]

theorem isValid_fromComponents (timestamp random : layout.Ty) :
    (fromComponents timestamp random).isValid = true := by
  rw [isValid_iff, toNat_fromComponents]
  exact digit_lt_pow (Nat.mod_lt _ (Nat.two_pow_pos _)) (Nat.mod_lt _ (Nat.two_pow_pos _))

theorem reserved_eq_zero (self : UlidId layout) (valid : self.isValid = true) :
    self.reserved = 0#(layout.width) := by
  have shiftEq : layout.reservedShift = layout.timestampBits + layout.randomBits := by
    rw [UlidLayout.reservedShift, timestampShift_eq]
    omega
  rw [isValid_iff] at valid
  apply BitVec.eq_of_toNat_eq
  rw [reserved, BitVec.toNat_ushiftRight, shiftEq, Nat.shiftRight_eq_div_pow,
    Nat.div_eq_of_lt valid]
  rfl

/-- A valid ID is the packed word of its own fields. -/
theorem toNat_eq_packed (self : UlidId layout) (valid : self.isValid = true) :
    self.id.toNat = packed layout self.timestamp.toNat self.random.toNat := by
  rw [isValid_iff] at valid
  have leading : self.id.toNat / 2 ^ layout.randomBits < 2 ^ layout.timestampBits := by
    apply Nat.div_lt_of_lt_mul
    rw [← Nat.pow_add]
    exact lt_of_lt_of_eq valid (by congr 1; omega)
  rw [packed, toNat_timestamp, toNat_random, Nat.mod_eq_of_lt leading, Nat.div_add_mod']

/-- Valid IDs compare lexicographically by timestamp and random field. -/
theorem lt_iff_of_isValid {left right : UlidId layout}
    (leftValid : left.isValid = true) (rightValid : right.isValid = true) :
    left < right ↔
      left.timestamp.toNat < right.timestamp.toNat ∨
        left.timestamp.toNat = right.timestamp.toNat ∧
          left.random.toNat < right.random.toNat := by
  rw [lt_def, toNat_eq_packed left leftValid, toNat_eq_packed right rightValid, packed, packed,
    digit_lt_iff left.random_lt right.random_lt]

/-- A valid ID is rebuilt from its own fields. -/
theorem fromComponents_fields (self : UlidId layout) (valid : self.isValid = true) :
    fromComponents self.timestamp self.random = self := by
  apply UlidId.ext
  apply BitVec.eq_of_toNat_eq
  rw [toNat_fromComponents, Nat.mod_eq_of_lt self.timestamp_lt, Nat.mod_eq_of_lt self.random_lt,
    ← toNat_eq_packed self valid]

/-! ### Clearing reserved bits -/

theorem toNat_intoValid (self : UlidId layout) :
    self.intoValid.id.toNat =
      self.id.toNat % 2 ^ (layout.timestampBits + layout.randomBits) := by
  show (self.id &&& layout.validMask).toNat = _
  rw [BitVec.toNat_and, toNat_validMask, Nat.and_two_pow_sub_one_eq_mod]

theorem isValid_intoValid (self : UlidId layout) : self.intoValid.isValid = true := by
  rw [isValid_iff, toNat_intoValid]
  exact Nat.mod_lt _ (Nat.two_pow_pos _)

theorem intoValid_of_isValid (self : UlidId layout) (valid : self.isValid = true) :
    self.intoValid = self := by
  rw [isValid_iff] at valid
  apply UlidId.ext
  apply BitVec.eq_of_toNat_eq
  rw [toNat_intoValid, Nat.mod_eq_of_lt valid]

/-- Clearing reserved bits leaves both accessors' results alone. -/
theorem fields_intoValid (self : UlidId layout) :
    self.intoValid.timestamp = self.timestamp ∧ self.intoValid.random = self.random := by
  refine ⟨BitVec.eq_of_toNat_eq ?_, BitVec.eq_of_toNat_eq ?_⟩
  · rw [toNat_timestamp, toNat_timestamp, toNat_intoValid, field_mod (by omega)]
  · have room : 0 + layout.randomBits ≤ layout.timestampBits + layout.randomBits := by
      omega
    have lowest := field_mod room self.id.toNat
    rw [Nat.pow_zero, Nat.div_one, Nat.div_one] at lowest
    rw [toNat_random, toNat_random, toNat_intoValid, lowest]

/-! ### Trait methods -/

theorem hasRandomRoom_iff (self : UlidId layout) :
    self.hasRandomRoom = true ↔ self.random.toNat + 1 < 2 ^ layout.randomBits := by
  have positive := Nat.two_pow_pos layout.randomBits
  rw [hasRandomRoom, decide_eq_true_iff, BitVec.lt_def, UlidLayout.toNat_maxRandom]
  omega

theorem hasRandomRoom_eq_false_iff (self : UlidId layout) :
    self.hasRandomRoom = false ↔ self.random = layout.maxRandom := by
  have bound := self.random_lt
  rw [← Bool.not_eq_true, hasRandomRoom_iff, ← BitVec.toNat_inj, UlidLayout.toNat_maxRandom]
  omega

/-- With room, incrementing changes the random field only: the carry stays
inside the field. -/
theorem fields_incrementRandom (self : UlidId layout) (room : self.hasRandomRoom = true) :
    self.incrementRandom.timestamp = self.timestamp ∧
      self.incrementRandom.random.toNat = self.random.toNat + 1 := by
  rw [hasRandomRoom_iff] at room
  have fieldFits : 2 ^ layout.randomBits ≤ 2 ^ layout.width :=
    Nat.pow_le_pow_right (by decide) layout.random_lt.le
  have oneFits : 1 < 2 ^ layout.width := Nat.one_lt_two_pow UlidLayout.width_pos.ne'
  have next : self.nextRandom.toNat = self.random.toNat + 1 := by
    rw [nextRandom, BitVec.toNat_add, BitVec.toNat_ofNat, Nat.mod_eq_of_lt oneFits]
    exact Nat.mod_eq_of_lt (by omega)
  obtain ⟨timestampField, randomField⟩ := fields_fromComponents self.timestamp self.nextRandom
  refine ⟨BitVec.eq_of_toNat_eq ?_, ?_⟩
  · rw [incrementRandom, timestampField, Nat.mod_eq_of_lt self.timestamp_lt]
  · rw [incrementRandom, randomField, next, Nat.mod_eq_of_lt room]

theorem isValid_incrementRandom (self : UlidId layout) :
    self.incrementRandom.isValid = true :=
  isValid_fromComponents _ _

theorem isValid_rolloverToTimestamp (self : UlidId layout) (ts rand : layout.Ty) :
    (self.rolloverToTimestamp ts rand).isValid = true :=
  isValid_fromComponents _ _

end UlidId

/-! ## The layout the crate defines -/

def ULID : UlidLayout :=
  ⟨128, 0, 48, 80, rfl, by decide, by decide⟩

end Ferroid.Id
