import Ferroid.Base32.Interface

/-!
Contract: what `decode` says about every byte string.

Owns the alphabet as a set of characters, the first offending byte that
`handle_error` reports, the reserved bits of a raw value, and the verdict of
`decode` on every string: wrong length, offending byte, overflow or ID.

Does not own the round trips between IDs and texts (`Base32.Interface`).
-/

namespace Ferroid.Base32

open Ferroid.Id
open Ferroid.Library

/-! ## The alphabet -/

/-- Digits and letters of either case, except `U`. -/
def isCrockford (c : UInt8) : Bool :=
  ('0'.toUInt8 ≤ c && c ≤ '9'.toUInt8) ||
    (('A'.toUInt8 ≤ c && c ≤ 'Z'.toUInt8 || 'a'.toUInt8 ≤ c && c ≤ 'z'.toUInt8) &&
      c != 'U'.toUInt8 && c != 'u'.toUInt8)

/-- The decoding table marks exactly the bytes outside the alphabet. -/
theorem DECODE_LUT_isCrockford :
    DECODE_LUT.map (fun entry => entry != INVALID_VALUE) =
      (List.range 256).map fun index => isCrockford index.toUInt8 := by
  decide +kernel

theorem decodeByte_eq_invalid_iff_isCrockford (b : UInt8) :
    decodeByte b = INVALID_VALUE ↔ isCrockford b = false := by
  have inBounds : b.toNat < 256 := b.toNat_lt
  have marked : (DECODE_LUT.map fun entry => entry != INVALID_VALUE)[b.toNat]? =
      some (isCrockford b) := by
    rw [DECODE_LUT_isCrockford, List.getElem?_map, List.getElem?_range inBounds, Option.map_some,
      Nat.toUInt8_eq, UInt8.ofNat_toNat]
  rw [List.getElem?_map, Option.map_eq_some_iff] at marked
  obtain ⟨entry, found, accepted⟩ := marked
  rw [decodeByte, List.getD_eq_getElem?_getD, found, Option.getD_some, ← accepted]
  simp

theorem isCrockford_iff (c : UInt8) : isCrockford c = true ↔ charValue c < 32 := by
  rw [← not_iff_not, ← decodeByte_eq_invalid_iff, decodeByte_eq_invalid_iff_isCrockford,
    Bool.not_eq_true]

/-! ## The offending byte -/

/-- `byte` at `index` is the first byte outside the alphabet. -/
structure FirstInvalid (bytes : List UInt8) (byte : UInt8) (index : Nat) : Prop where
  found : bytes[index]? = some byte
  outside : isCrockford byte = false
  earlier : ∀ position other, position < index → bytes[position]? = some other →
    isCrockford other = true

theorem FirstInvalid.tail {first byte : UInt8} {rest : List UInt8} {index : Nat}
    (offending : FirstInvalid (first :: rest) byte (index + 1)) :
    FirstInvalid rest byte index where
  found := by simpa using offending.found
  outside := offending.outside
  earlier := by
    intro position other below present
    exact offending.earlier (position + 1) other (by omega) (by simpa using present)

/-- A string with a byte outside the alphabet has a first one. -/
theorem exists_firstInvalid {bytes : List UInt8} {b : UInt8} (member : b ∈ bytes)
    (outside : isCrockford b = false) : ∃ byte index, FirstInvalid bytes byte index := by
  induction bytes with
  | nil => cases member
  | cons first rest inductionHypothesis =>
      cases accepted : isCrockford first with
      | false =>
          refine ⟨first, 0, rfl, accepted, ?_⟩
          intro position other below _
          exact absurd below (Nat.not_lt_zero position)
      | true =>
          have later : b ∈ rest := by
            rcases List.mem_cons.mp member with rfl | later
            · rw [accepted] at outside
              cases outside
            · exact later
          obtain ⟨byte, index, found, byteOutside, earlier⟩ := inductionHypothesis later
          refine ⟨byte, index + 1, by simpa using found, byteOutside, ?_⟩
          intro position other below present
          cases position with
          | zero =>
              have same : first = other := by simpa using present
              rw [← same]
              exact accepted
          | succ position =>
              exact earlier position other (by omega) (by simpa using present)

/-- The second loop finds the first offending byte, from any starting index. -/
theorem findSome_zipIdx_of_firstInvalid {E : Type} {bytes : List UInt8} {byte : UInt8}
    {index : Nat} (offending : FirstInvalid bytes byte index) (start : Nat) :
    ((bytes.zipIdx start).findSome? fun (b, i) =>
        if decodeByte b == INVALID_VALUE then some (Error.decodeInvalidAscii (E := E) b i)
        else none) =
      some (.decodeInvalidAscii byte (start + index)) := by
  induction bytes generalizing index start with
  | nil => cases offending.found
  | cons first rest inductionHypothesis =>
      rw [List.zipIdx_cons, List.findSome?_cons]
      cases index with
      | zero =>
          have same : first = byte := by simpa using offending.found
          have invalid := (decodeByte_eq_invalid_iff_isCrockford byte).mpr offending.outside
          simp only [same, beq_iff_eq.mpr invalid, if_true, Nat.add_zero]
      | succ index =>
          have accepted : isCrockford first = true :=
            offending.earlier 0 first (Nat.succ_pos index) rfl
          have valid : ¬ (decodeByte first == INVALID_VALUE) = true := by
            rw [beq_iff_eq, decodeByte_eq_invalid_iff_isCrockford, accepted]
            exact Bool.noConfusion
          simp only [if_neg valid]
          rw [inductionHypothesis offending.tail (start + 1), Nat.add_assoc, Nat.add_comm 1]

theorem handleError_of_firstInvalid {E : Type} {bytes : List UInt8} {byte : UInt8} {index : Nat}
    (offending : FirstInvalid bytes byte index) :
    handleError (E := E) bytes = some (.decodeInvalidAscii byte index) := by
  rw [handleError, findSome_zipIdx_of_firstInvalid offending 0, Nat.zero_add]

/-- The unrolled loop notices an offending byte wherever it falls, and the second
loop then reports the first one. -/
theorem decodeBase32_of_firstInvalid (width : Nat) {E : Type} {bytes : List UInt8}
    {byte : UInt8} {index : Nat} (offending : FirstInvalid bytes byte index) :
    decodeBase32 width (E := E) bytes = some (.error (.decodeInvalidAscii byte index)) := by
  have noticed : (bytes.any fun b => decodeByte b == INVALID_VALUE) = true := by
    rw [List.any_eq_true]
    refine ⟨byte, List.mem_of_getElem? offending.found, ?_⟩
    rw [beq_iff_eq]
    exact (decodeByte_eq_invalid_iff_isCrockford byte).mpr offending.outside
  rw [decodeBase32, decodeLoop_eq, noticed, handleError_of_firstInvalid offending]
  rfl

/-! ## Reserved bits -/

/-- One of the `reservedBits` most significant bits is set. -/
def ReservedBitSet {width : Nat} (reservedBits : Nat) (raw : BitVec width) : Prop :=
  ∃ bit, width - reservedBits ≤ bit ∧ raw.getLsbD bit = true

theorem reservedBitSet_iff {width reservedBits : Nat} (raw : BitVec width) :
    ReservedBitSet reservedBits raw ↔ ¬ raw.toNat < 2 ^ (width - reservedBits) := by
  constructor
  · rintro ⟨bit, reserved, set⟩ small
    have clear : raw.toNat.testBit bit = false :=
      Nat.testBit_lt_two_pow (lt_of_lt_of_le small (Nat.pow_le_pow_right (by decide) reserved))
    rw [BitVec.testBit_toNat, set] at clear
    cases clear
  · intro large
    by_contra noneSet
    apply large
    apply Nat.lt_pow_two_of_testBit
    intro bit reserved
    by_contra set
    rw [BitVec.testBit_toNat, Bool.not_eq_false] at set
    exact noneSet ⟨bit, reserved, set⟩

theorem SnowflakeId.isValid_iff_reserved {layout : SnowflakeLayout} (raw : layout.Ty) :
    (SnowflakeId.fromRaw raw).isValid = true ↔ ¬ ReservedBitSet layout.reservedBits raw := by
  have total := layout.total
  have fieldBits : layout.width - layout.reservedBits =
      layout.timestampBits + layout.machineIdBits + layout.sequenceBits := by
    omega
  rw [reservedBitSet_iff, not_not, fieldBits]
  exact SnowflakeId.isValid_iff _

theorem UlidId.isValid_iff_reserved {layout : UlidLayout} (raw : layout.Ty) :
    (UlidId.fromRaw raw).isValid = true ↔ ¬ ReservedBitSet layout.reservedBits raw := by
  have total := layout.total
  have fieldBits : layout.width - layout.reservedBits =
      layout.timestampBits + layout.randomBits := by
    omega
  rw [reservedBitSet_iff, not_not, fieldBits]
  exact UlidId.isValid_iff _

/-! ## The verdict -/

/-- `decode` in full: every byte string gets exactly one of four answers, in this
order of precedence, and none of them is a panic. -/
structure ExactDecode {ID : Type} {width : Nat} (fromRaw : BitVec width → ID)
    (reservedBits : Nat) (decode : List UInt8 → Option (Except (Error ID) ID)) : Prop where
  wrongLength : ∀ s, s.length ≠ (width + 4) / 5 →
    decode s = some (.error (.decodeInvalidLen s.length))
  invalidByte : ∀ s byte index, s.length = (width + 4) / 5 → FirstInvalid s byte index →
    decode s = some (.error (.decodeInvalidAscii byte index))
  overflow : ∀ s, s.length = (width + 4) / 5 → (∀ b ∈ s, isCrockford b = true) →
    ∀ v : BitVec width, v = BitVec.ofNat width (Radix.value 32 (s.map charValue)) →
      ReservedBitSet reservedBits v → decode s = some (.error (.decodeOverflow (fromRaw v)))
  accepted : ∀ s, s.length = (width + 4) / 5 → (∀ b ∈ s, isCrockford b = true) →
    ∀ v : BitVec width, v = BitVec.ofNat width (Radix.value 32 (s.map charValue)) →
      ¬ ReservedBitSet reservedBits v → decode s = some (.ok (fromRaw v))
  neverPanics : ∀ s, decode s ≠ none

theorem IsBacking.BASE32_SIZE_eq {width : Nat} (backing : IsBacking width) :
    BASE32_SIZE width = (width + 4) / 5 := by
  rcases backing with rfl | rfl | rfl <;> rfl

/-- The checked decoder on a string of the right length over the alphabet. -/
theorem decodeChecked_of_accepted {ID : Type} {width : Nat} (backing : IsBacking width)
    (fromRaw : BitVec width → ID) (isValid : ID → Bool) {s : List UInt8}
    (sized : s.length = (width + 4) / 5) (accepted : ∀ b ∈ s, isCrockford b = true)
    {v : BitVec width} (value : v = BitVec.ofNat width (Radix.value 32 (s.map charValue))) :
    decodeChecked fromRaw isValid s =
      some (if isValid (fromRaw v) then .ok (fromRaw v)
        else .error (.decodeOverflow (fromRaw v))) := by
  have charAccepted : ∀ b ∈ s, charValue b < 32 :=
    fun b member => (isCrockford_iff b).mp (accepted b member)
  rw [← backing.BASE32_SIZE_eq] at sized
  rw [decodeChecked, innerDecode, if_neg (not_not.mpr sized),
    decodeBase32_of_accepted width charAccepted, Option.map_some, ← value]
  cases valid : isValid (fromRaw v) <;> simp [valid]

theorem exactDecode_of_backing {ID : Type} {width : Nat} (backing : IsBacking width)
    (fromRaw : BitVec width → ID) (isValid : ID → Bool) (reservedBits : Nat)
    (isValid_iff : ∀ raw, isValid (fromRaw raw) = true ↔ ¬ ReservedBitSet reservedBits raw) :
    ExactDecode fromRaw reservedBits (decodeChecked fromRaw isValid) := by
  have wrongLength : ∀ s : List UInt8, s.length ≠ (width + 4) / 5 →
      decodeChecked fromRaw isValid s = some (.error (.decodeInvalidLen s.length)) := by
    intro s unsized
    rw [← backing.BASE32_SIZE_eq] at unsized
    rw [decodeChecked, innerDecode, if_pos unsized]
    rfl
  have invalidByte : ∀ s byte index, s.length = (width + 4) / 5 → FirstInvalid s byte index →
      decodeChecked fromRaw isValid s = some (.error (.decodeInvalidAscii byte index)) := by
    intro s byte index sized offending
    rw [← backing.BASE32_SIZE_eq] at sized
    rw [decodeChecked, innerDecode, if_neg (not_not.mpr sized),
      decodeBase32_of_firstInvalid width offending]
    rfl
  refine ⟨wrongLength, invalidByte, ?_, ?_, ?_⟩
  · intro s sized accepted v value reserved
    rw [decodeChecked_of_accepted backing fromRaw isValid sized accepted value,
      if_neg (fun valid => (isValid_iff v).mp valid reserved)]
  · intro s sized accepted v value clear
    rw [decodeChecked_of_accepted backing fromRaw isValid sized accepted value,
      if_pos ((isValid_iff v).mpr clear)]
  · intro s
    by_cases sized : s.length = (width + 4) / 5
    · by_cases accepted : ∀ b ∈ s, isCrockford b = true
      · rw [decodeChecked_of_accepted backing fromRaw isValid sized accepted rfl]
        exact Option.some_ne_none _
      · obtain ⟨b, member, outside⟩ : ∃ b ∈ s, isCrockford b = false := by
          simpa using accepted
        obtain ⟨byte, index, offending⟩ := exists_firstInvalid member outside
        rw [invalidByte s byte index sized offending]
        exact Option.some_ne_none _
    · rw [wrongLength s sized]
      exact Option.some_ne_none _

/-- `decode` of every Snowflake and ULID layout over a 32-, 64- or 128-bit integer. -/
theorem decode_exact (width : Nat) (backing : IsBacking width) :
    (∀ layout : SnowflakeLayout, layout.width = width →
      ExactDecode (SnowflakeId.fromRaw : layout.Ty → SnowflakeId layout) layout.reservedBits
        (Base32SnowExt.decode layout)) ∧
      ∀ layout : UlidLayout, layout.width = width →
        ExactDecode (UlidId.fromRaw : layout.Ty → UlidId layout) layout.reservedBits
          (Base32UlidExt.decode layout) := by
  constructor
  · intro layout sized
    rw [← sized] at backing
    exact exactDecode_of_backing backing SnowflakeId.fromRaw SnowflakeId.isValid
      layout.reservedBits SnowflakeId.isValid_iff_reserved
  · intro layout sized
    rw [← sized] at backing
    exact exactDecode_of_backing backing UlidId.fromRaw UlidId.isValid
      layout.reservedBits UlidId.isValid_iff_reserved

/-- A Twitter text with two offending bytes reports the first one, in the last
group of four; a ULID text with surplus bits set drops them. -/
theorem decode_exact_twitter_ulid :
    let offending : List UInt8 := ['0', '1', '2', '3', '4', '5', '6', '7', '8', 'u', 'A', '!',
      'Z'].map Char.toUInt8
    let surplus : List UInt8 := List.replicate 26 'z'.toUInt8
    Base32SnowExt.decode SnowflakeTwitterId offending =
        some (.error (.decodeInvalidAscii 'u'.toUInt8 9)) ∧
      Base32UlidExt.decode ULID surplus = some (.ok (UlidId.fromRaw (BitVec.allOnes 128))) := by
  intro offending surplus
  have first : FirstInvalid offending 'u'.toUInt8 9 := by
    refine ⟨rfl, by decide, ?_⟩
    intro position other below present
    have prefixAccepted : ∀ b ∈ offending.take 9, isCrockford b = true := by
      decide +kernel
    apply prefixAccepted
    rw [← List.getElem?_take_of_lt below] at present
    exact List.mem_of_getElem? present
  have clear : ¬ ReservedBitSet 0 (BitVec.allOnes 128) := by
    rw [reservedBitSet_iff, not_not]
    decide
  have value : BitVec.allOnes 128 =
      BitVec.ofNat 128 (Radix.value 32 (surplus.map charValue)) := by
    decide +kernel
  constructor
  · exact ((decode_exact 64 (by decide)).1 SnowflakeTwitterId rfl).invalidByte offending _ 9
      rfl first
  · exact ((decode_exact 128 (by decide)).2 ULID rfl).accepted surplus rfl (by decide +kernel)
      (BitVec.allOnes 128) value clear

end Ferroid.Base32
