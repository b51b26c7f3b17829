import Ferroid.Library.BitField
import Ferroid.Library.Radix

/-!
Contract: the Crockford Base32 encoder and decoder.

Owns the two lookup tables, `encode_base32` with its `usize` accumulator and its
unchecked writes, `decode_base32` with its four-way unrolled loop, and the digit
strings both of them compute.

Does not own buffers sized for an integer type, ID validity or serde.
-/

namespace Ferroid.Base32

open Ferroid.Library

/-! ## Tables -/

def INVALID_VALUE : UInt8 := 255

def BITS_PER_CHAR : Nat := 5

/-- `ENCODE_LUT`, 32 entries. -/
def ENCODE_LUT : List UInt8 :=
  ['0', '1', '2', '3', '4', '5', '6', '7', '8', '9', 'A', 'B', 'C', 'D', 'E', 'F', 'G', 'H',
    'J', 'K', 'M', 'N', 'P', 'Q', 'R', 'S', 'T', 'V', 'W', 'X', 'Y', 'Z'].map Char.toUInt8

/-- `ENCODE_LUT.get_unchecked`. The index is masked to five bits by the caller, so
the default is never read. -/
def encodeChar (index : Nat) : UInt8 := ENCODE_LUT.getD index 0

/-- `u8::is_ascii_uppercase`. -/
def isAsciiUppercase (c : UInt8) : Bool :=
  'A'.toUInt8 ≤ c && c ≤ 'Z'.toUInt8

/-- `DECODE_LUT`, 256 entries: the alphabet in both cases, then the aliases. -/
def DECODE_LUT : List UInt8 :=
  let empty := List.replicate 256 INVALID_VALUE
  let alphabet := (List.range 32).foldl (fun lut i =>
    let c := encodeChar i
    let lut := lut.set c.toNat i.toUInt8
    if isAsciiUppercase c then lut.set (c + 32).toNat i.toUInt8 else lut) empty
  let zeros := (alphabet.set 'O'.toUInt8.toNat 0).set 'o'.toUInt8.toNat 0
  let upper := (zeros.set 'I'.toUInt8.toNat 1).set 'i'.toUInt8.toNat 1
  (upper.set 'L'.toUInt8.toNat 1).set 'l'.toUInt8.toNat 1

/-- `DECODE_LUT.get_unchecked`; a byte is always a valid index. -/
def decodeByte (b : UInt8) : UInt8 := DECODE_LUT.getD b.toNat INVALID_VALUE

/-! ## Encoder -/

/-- The compilation target: a `usize` has at least 16 bits. -/
structure Target where
  usizeBits : Nat
  atLeast : 16 ≤ usizeBits

/-- Local variables of `encode_base32` and the buffer it writes. -/
structure Encoder (target : Target) where
  acc : BitVec target.usizeBits
  bits : Nat
  out : Nat
  buf : List UInt8

/-- The inner loop; `none` is a write past the end of the buffer. -/
def Encoder.drain {target : Target} (self : Encoder target) : Option (Encoder target) :=
  if BITS_PER_CHAR ≤ self.bits then
    let bits := self.bits - BITS_PER_CHAR
    let index := (self.acc >>> bits) &&& 0x1F#(target).usizeBits
    if self.out < self.buf.length then
      Encoder.drain
        { acc := self.acc
          bits := bits
          out := self.out + 1
          buf := self.buf.set self.out (encodeChar index.toNat) }
    else
      none
  else
    some self
termination_by self.bits
decreasing_by simp only [BITS_PER_CHAR] at *; omega

/-- The outer loop body. -/
def Encoder.push {target : Target} (self : Encoder target) (b : UInt8) :
    Option (Encoder target) :=
  Encoder.drain { self with
    acc := (self.acc <<< 8) ||| BitVec.ofNat target.usizeBits b.toNat
    bits := self.bits + 8 }

/-- `base32_size`: characters needed for a number of bytes. -/
def base32Size (bytes : Nat) : Nat := (bytes * 8 + 4) / 5

/-- `encode_base32`; the bit counts are `usize` values that wrap in release
builds. -/
def encodeBase32 (target : Target) (input bufSlice : List UInt8) : Option (List UInt8) :=
  let inputBits := BitVec.ofNat target.usizeBits (input.length * 8)
  let outputChars := bufSlice.length
  let totalBits := BitVec.ofNat target.usizeBits (outputChars * BITS_PER_CHAR)
  let bits := (totalBits - inputBits).toNat
  let start : Encoder target := ⟨0#(target).usizeBits, bits, 0, bufSlice⟩
  (input.foldlM Encoder.push start).map Encoder.buf

/-! ## Decoder -/

/-- `base32::Error`. -/
inductive Error (E : Type) where
  | decodeInvalidLen (len : Nat)
  | decodeInvalidAscii (byte : UInt8) (index : Nat)
  | decodeOverflow (id : E)
deriving DecidableEq, Repr

/-- `acc = (acc << BITS_PER_CHAR) | T::from(v)`. -/
def shiftIn {width : Nat} (acc : BitVec width) (v : UInt8) : BitVec width :=
  (acc <<< BITS_PER_CHAR) ||| BitVec.ofNat width v.toNat

/-- The two loops of `decode_base32`: whole groups of four, then the remainder. -/
def decodeLoop {width : Nat} (acc : BitVec width) (hasError : Bool) :
    List UInt8 → BitVec width × Bool
  | b0 :: b1 :: b2 :: b3 :: rest =>
      let v0 := decodeByte b0
      let v1 := decodeByte b1
      let v2 := decodeByte b2
      let v3 := decodeByte b3
      decodeLoop (shiftIn (shiftIn (shiftIn (shiftIn acc v0) v1) v2) v3)
        (hasError || (v0 ||| v1 ||| v2 ||| v3) == INVALID_VALUE) rest
  | remainder =>
      remainder.foldl (fun (acc, hasError) b =>
        (shiftIn acc (decodeByte b), hasError || decodeByte b == INVALID_VALUE)) (acc, hasError)

/-- `handle_error`; `none` is its `unreachable!`. -/
def handleError {E : Type} (bytes : List UInt8) : Option (Error E) :=
  bytes.zipIdx.findSome? fun (b, i) =>
    if decodeByte b == INVALID_VALUE then some (.decodeInvalidAscii b i) else none

/-- `decode_base32`; `none` is a panic. -/
def decodeBase32 (width : Nat) {E : Type} (bytes : List UInt8) :
    Option (Except (Error E) (BitVec width)) :=
  let (acc, hasError) := decodeLoop 0#(width) false bytes
  if hasError then
    (handleError bytes).map .error
  else
    some (.ok acc)

/-! ## What the tables say -/

/-- Letters upper-cased, then `O` read as `0` and `I`, `L` as `1`. -/
def canonicalChar (c : UInt8) : UInt8 :=
  let upper := if 'a'.toUInt8 ≤ c && c ≤ 'z'.toUInt8 then c - 32 else c
  if upper == 'O'.toUInt8 then '0'.toUInt8
  else if upper == 'I'.toUInt8 || upper == 'L'.toUInt8 then '1'.toUInt8
  else upper

/-- Position of a character in the alphabet, aliases resolved; 32 for a byte
outside the alphabet. -/
def charValue (c : UInt8) : Nat := ENCODE_LUT.idxOf (canonicalChar c)

/-- The decoding table, entry by entry. -/
theorem DECODE_LUT_eq :
    DECODE_LUT = (List.range 256).map fun index =>
      if charValue index.toUInt8 < 32 then (charValue index.toUInt8).toUInt8
      else INVALID_VALUE := by
  decide +kernel

theorem decodeByte_eq (b : UInt8) :
    decodeByte b = if charValue b < 32 then (charValue b).toUInt8 else INVALID_VALUE := by
  have inBounds : b.toNat < 256 := b.toNat_lt
  rw [decodeByte, DECODE_LUT_eq, List.getD_eq_getElem?_getD, List.getElem?_map,
    List.getElem?_range inBounds, Option.map_some, Option.getD_some]
  simp only [Nat.toUInt8_eq, UInt8.ofNat_toNat]

theorem toNat_decodeByte {b : UInt8} (accepted : charValue b < 32) :
    (decodeByte b).toNat = charValue b := by
  rw [decodeByte_eq, if_pos accepted, Nat.toUInt8_eq, UInt8.toNat_ofNat']
  exact Nat.mod_eq_of_lt (by omega)

theorem decodeByte_eq_invalid_iff (b : UInt8) :
    decodeByte b = INVALID_VALUE ↔ ¬ charValue b < 32 := by
  constructor
  · intro invalid accepted
    have small := toNat_decodeByte accepted
    rw [invalid, INVALID_VALUE] at small
    simp at small
    omega
  · intro rejected
    rw [decodeByte_eq, if_neg rejected]

/-- Encoding a character's value spells the character canonically. -/
theorem encodeChar_charValue {b : UInt8} (accepted : charValue b < 32) :
    encodeChar (charValue b) = canonicalChar b := by
  have inBounds : ENCODE_LUT.idxOf (canonicalChar b) < ENCODE_LUT.length := accepted
  rw [encodeChar, charValue, List.getD_eq_getElem _ _ inBounds, List.getElem_idxOf]

theorem charValue_encodeChar {digit : Nat} (small : digit < 32) :
    charValue (encodeChar digit) = digit := by
  have table : ∀ digit < 32, charValue (encodeChar digit) = digit := by decide +kernel
  exact table digit small

/-! ## The decoder reads a digit string -/

/-- A table entry: the invalid marker or a five-bit value. -/
def IsEntry (v : UInt8) : Prop := v = INVALID_VALUE ∨ v.toNat < 32

theorem isEntry_decodeByte (b : UInt8) : IsEntry (decodeByte b) := by
  by_cases accepted : charValue b < 32
  · exact Or.inr (lt_of_eq_of_lt (toNat_decodeByte accepted) accepted)
  · exact Or.inl ((decodeByte_eq_invalid_iff b).mpr accepted)

/-- The invalid marker absorbs, and five-bit values stay five-bit. -/
theorem IsEntry.or {left right : UInt8} (leftEntry : IsEntry left) (rightEntry : IsEntry right) :
    IsEntry (left ||| right) ∧
      (left ||| right = INVALID_VALUE ↔ left = INVALID_VALUE ∨ right = INVALID_VALUE) := by
  have absorbs (v : UInt8) : INVALID_VALUE ||| v = INVALID_VALUE :=
    UInt8.toBitVec_inj.mp (by rw [UInt8.toBitVec_or]; exact BitVec.allOnes_or)
  rcases leftEntry with rfl | leftSmall
  · rw [absorbs]
    exact ⟨Or.inl rfl, by simp⟩
  · rcases rightEntry with rfl | rightSmall
    · rw [UInt8.or_comm, absorbs]
      exact ⟨Or.inl rfl, by simp⟩
    · have small : (left ||| right).toNat < 32 := by
        rw [UInt8.toNat_or]
        exact Nat.or_lt_two_pow (n := 5) leftSmall rightSmall
      have notInvalid {v : UInt8} (below : v.toNat < 32) : v ≠ INVALID_VALUE := by
        rintro rfl
        exact absurd below (by decide)
      exact ⟨Or.inr small, by simp [notInvalid small, notInvalid leftSmall,
        notInvalid rightSmall]⟩

/-- Four table entries OR to the invalid marker exactly when one of them is it. -/
theorem or_four_eq_invalid (b0 b1 b2 b3 : UInt8) :
    ((decodeByte b0 ||| decodeByte b1 ||| decodeByte b2 ||| decodeByte b3) == INVALID_VALUE) =
      (decodeByte b0 == INVALID_VALUE || decodeByte b1 == INVALID_VALUE ||
        decodeByte b2 == INVALID_VALUE || decodeByte b3 == INVALID_VALUE) := by
  obtain ⟨entry01, iff01⟩ := (isEntry_decodeByte b0).or (isEntry_decodeByte b1)
  obtain ⟨entry012, iff012⟩ := entry01.or (isEntry_decodeByte b2)
  obtain ⟨_, iff0123⟩ := entry012.or (isEntry_decodeByte b3)
  rw [Bool.eq_iff_iff]
  simp only [Bool.or_eq_true, beq_iff_eq, iff0123, iff012, iff01]

/-- Both loops together: one shift per character, and an error exactly when some
character is invalid. -/
theorem decodeLoop_eq {width : Nat} (acc : BitVec width) (hasError : Bool)
    (bytes : List UInt8) :
    decodeLoop acc hasError bytes =
      (bytes.foldl (fun acc b => shiftIn acc (decodeByte b)) acc,
        hasError || bytes.any fun b => decodeByte b == INVALID_VALUE) := by
  induction acc, hasError, bytes using decodeLoop.induct with
  | case1 acc hasError b0 b1 b2 b3 rest v0 v1 v2 v3 inductionHypothesis =>
      rw [decodeLoop, inductionHypothesis]
      simp only [v0, v1, v2, v3, or_four_eq_invalid, List.foldl_cons, List.any_cons,
        Bool.or_assoc]
  | case2 acc hasError remainder short =>
      rw [decodeLoop]
      · clear short
        induction remainder generalizing acc hasError with
        | nil => simp
        | cons b rest inductionHypothesis =>
            rw [List.foldl_cons, inductionHypothesis, List.foldl_cons, List.any_cons,
              Bool.or_assoc]
      · exact short

/-- Shifting five bits in multiplies by 32 and adds, modulo the integer width. -/
theorem shiftIn_ofNat {width number : Nat} {v : UInt8} (small : v.toNat < 32) :
    shiftIn (BitVec.ofNat width number) v = BitVec.ofNat width (number * 32 + v.toNat) := by
  apply BitVec.eq_of_toNat_eq
  rw [shiftIn, BitVec.toNat_or, BitVec.toNat_shiftLeft, BitVec.toNat_ofNat, BitVec.toNat_ofNat,
    BitVec.toNat_ofNat, BITS_PER_CHAR, Nat.shiftLeft_eq, Nat.mod_mul_mod, ← Nat.or_mod_two_pow,
    ← Nat.shiftLeft_eq, ← Nat.shiftLeft_add_eq_or_of_lt small, Nat.shiftLeft_eq]

theorem foldl_shiftIn {width : Nat} {bytes : List UInt8}
    (accepted : ∀ b ∈ bytes, charValue b < 32) (number : Nat) :
    bytes.foldl (fun acc b => shiftIn acc (decodeByte b)) (BitVec.ofNat width number) =
      BitVec.ofNat width
        ((bytes.map charValue).foldl (fun number digit => number * 32 + digit) number) := by
  induction bytes generalizing number with
  | nil => rfl
  | cons b rest inductionHypothesis =>
      have first := accepted b (by simp)
      have value := toNat_decodeByte first
      rw [List.foldl_cons, shiftIn_ofNat (lt_of_eq_of_lt value first), value,
        inductionHypothesis fun other member => accepted other (by simp [member])]
      rfl

/-- A string of accepted characters decodes to its base-32 value modulo the
integer width. -/
theorem decodeBase32_of_accepted (width : Nat) {E : Type} {bytes : List UInt8}
    (accepted : ∀ b ∈ bytes, charValue b < 32) :
    decodeBase32 width (E := E) bytes =
      some (.ok (BitVec.ofNat width (Radix.value 32 (bytes.map charValue)))) := by
  have noError : (bytes.any fun b => decodeByte b == INVALID_VALUE) = false := by
    rw [List.any_eq_false]
    intro b member invalid
    exact (decodeByte_eq_invalid_iff b).mp (beq_iff_eq.mp invalid) (accepted b member)
  rw [decodeBase32, decodeLoop_eq, noError, foldl_shiftIn accepted 0]
  rfl

/-- Only strings of accepted characters decode to a value. -/
theorem accepted_of_decodeBase32 {width : Nat} {E : Type} {bytes : List UInt8}
    {raw : BitVec width} (decoded : decodeBase32 width (E := E) bytes = some (.ok raw)) :
    ∀ b ∈ bytes, charValue b < 32 := by
  intro b member
  by_contra rejected
  have error : (bytes.any fun b => decodeByte b == INVALID_VALUE) = true := by
    rw [List.any_eq_true]
    exact ⟨b, member, beq_iff_eq.mpr ((decodeByte_eq_invalid_iff b).mpr rejected)⟩
  rw [decodeBase32, decodeLoop_eq, error] at decoded
  simp only [Bool.or_true, if_true] at decoded
  obtain ⟨_, _, impossible⟩ := Option.map_eq_some_iff.mp decoded
  cases impossible

/-! ## The encoder writes a digit string -/

/-- Five bits of the wrapped accumulator are the five bits of the number it
accumulates, as long as they lie below the word size. -/
theorem toNat_mask_shift {width number shift : Nat} {acc : BitVec width}
    (accumulated : acc.toNat = number % 2 ^ width) (fits : shift + 5 ≤ width) :
    ((acc >>> shift) &&& 0x1F#(width)).toNat = number / 2 ^ shift % 32 := by
  have maskFits : 0x1F < 2 ^ width :=
    lt_of_lt_of_le (by decide) (Nat.pow_le_pow_right (by decide) (Nat.le_of_add_left_le fits))
  have split : 2 ^ width = 2 ^ shift * 2 ^ (width - shift) := by
    rw [← Nat.pow_add]
    congr 1
    omega
  have divides : 32 ∣ 2 ^ (width - shift) :=
    Nat.pow_dvd_pow 2 (show 5 ≤ width - shift by omega)
  rw [BitVec.toNat_and, BitVec.toNat_ushiftRight, BitVec.toNat_ofNat, Nat.mod_eq_of_lt maskFits,
    show 0x1F = 2 ^ 5 - 1 by rfl, Nat.and_two_pow_sub_one_eq_mod, Nat.shiftRight_eq_div_pow,
    accumulated, split, Nat.mod_mul_right_div_self, Nat.mod_mod_of_dvd _ divides]

/-- Between two steps of the inner loop: the characters written so far spell the
accumulated number without its pending bits, and the rest of the buffer is
untouched. -/
structure Encoder.Spells {target : Target} (encoder : Encoder target) (total number : Nat) :
    Prop where
  accumulated : encoder.acc.toNat = number % 2 ^ target.usizeBits
  length : encoder.buf.length = total
  written : encoder.buf.take encoder.out =
    (Radix.digits 32 encoder.out (number / 2 ^ encoder.bits)).map encodeChar

/-- The inner loop writes until fewer than five bits are pending. -/
theorem Encoder.Spells.drain {target : Target} {self : Encoder target} {total number : Nat}
    (spells : self.Spells total number) (pending : self.bits ≤ 12)
    (room : 5 * self.out + self.bits ≤ 5 * total) :
    ∃ next, self.drain = some next ∧ next.Spells total number ∧ next.bits < 5 ∧
      5 * next.out + next.bits = 5 * self.out + self.bits := by
  induction self using Encoder.drain.induct with
  | case1 self enough bits index inBounds inductionHypothesis =>
      have atLeast := target.atLeast
      simp only [BITS_PER_CHAR] at enough
      have bitsEq : bits = self.bits - 5 := rfl
      have digit : index.toNat = number / 2 ^ bits % 32 :=
        toNat_mask_shift spells.accumulated (by omega)
      have shifted : number / 2 ^ bits / 32 = number / 2 ^ self.bits := by
        rw [Nat.div_div_eq_div_mul, show 32 = 2 ^ 5 by rfl, ← Nat.pow_add, bitsEq,
          Nat.sub_add_cancel enough]
      rw [Encoder.drain]
      simp only [BITS_PER_CHAR, enough, if_true, inBounds]
      obtain ⟨next, drained, nextSpells, nextBits, count⟩ := inductionHypothesis
        ⟨spells.accumulated, by simpa using spells.length, by
          rw [List.take_add_one, List.take_set_of_le (Nat.le_refl _), spells.written,
            List.getElem?_set_self inBounds, digit, Radix.digits, shifted, List.map_append]
          rfl⟩
        (by simp only; omega) (by simp only; omega)
      refine ⟨next, drained, nextSpells, nextBits, ?_⟩
      simp only at count
      omega
  | case2 self enough full =>
      simp only [BITS_PER_CHAR] at enough
      have length := spells.length
      omega
  | case3 self few =>
      simp only [BITS_PER_CHAR] at few
      rw [Encoder.drain]
      simp only [BITS_PER_CHAR, few, if_false]
      exact ⟨self, rfl, spells, by omega, rfl⟩

/-- One byte: the pending bits move up by eight, and the word drops what no longer
fits. -/
theorem Encoder.Spells.push {target : Target} {self : Encoder target} {total number : Nat}
    (spells : self.Spells total number) (few : self.bits < 5) (b : UInt8)
    (room : 5 * self.out + self.bits + 8 ≤ 5 * total) :
    ∃ next, self.push b = some next ∧ next.Spells total (number * 256 + b.toNat) ∧
      next.bits < 5 ∧ 5 * next.out + next.bits = 5 * self.out + self.bits + 8 := by
  have byteFits : b.toNat < 2 ^ 8 := b.toNat_lt
  have dropped : (number * 256 + b.toNat) / 2 ^ (self.bits + 8) = number / 2 ^ self.bits := by
    rw [Nat.add_comm self.bits, Nat.pow_add, ← Nat.div_div_eq_div_mul, Nat.mul_comm,
      show 256 = 2 ^ 8 by rfl, Nat.mul_add_div (by decide), Nat.div_eq_of_lt byteFits,
      Nat.add_zero]
  rw [Encoder.push]
  have pushed : Encoder.Spells
      { self with
        acc := (self.acc <<< 8) ||| BitVec.ofNat target.usizeBits b.toNat
        bits := self.bits + 8 } total (number * 256 + b.toNat) := by
    refine ⟨?_, spells.length, ?_⟩
    · simp only
      rw [BitVec.toNat_or, BitVec.toNat_shiftLeft, BitVec.toNat_ofNat, spells.accumulated,
        Nat.shiftLeft_eq, Nat.mod_mul_mod, ← Nat.or_mod_two_pow, ← Nat.shiftLeft_eq,
        ← Nat.shiftLeft_add_eq_or_of_lt byteFits, Nat.shiftLeft_eq]
    · simp only
      rw [dropped]
      exact spells.written
  exact pushed.drain (by simp only; omega) (by simp only; omega)

theorem Encoder.Spells.foldlM_push {target : Target} {self : Encoder target} {total number : Nat}
    (spells : self.Spells total number) (few : self.bits < 5) (input : List UInt8)
    (room : 5 * self.out + self.bits + 8 * input.length ≤ 5 * total) :
    ∃ next, input.foldlM Encoder.push self = some next ∧
      next.Spells total ((input.map UInt8.toNat).foldl (fun n digit => n * 256 + digit) number) ∧
      next.bits < 5 ∧ 5 * next.out + next.bits = 5 * self.out + self.bits + 8 * input.length := by
  induction input generalizing self number with
  | nil => exact ⟨self, rfl, spells, few, rfl⟩
  | cons b rest inductionHypothesis =>
      rw [List.length_cons] at room
      obtain ⟨middle, pushed, middleSpells, middleFew, middleCount⟩ :=
        spells.push few b (by omega)
      obtain ⟨next, folded, nextSpells, nextFew, nextCount⟩ :=
        inductionHypothesis middleSpells middleFew (by omega)
      refine ⟨next, ?_, nextSpells, nextFew, ?_⟩
      · rw [List.foldlM_cons, pushed]
        exact folded
      · rw [List.length_cons]
        omega

/-- The state in which `encode_base32` enters its loop. -/
def Encoder.start (target : Target) (input bufSlice : List UInt8) : Encoder target where
  acc := 0#(target).usizeBits
  bits := (BitVec.ofNat target.usizeBits (bufSlice.length * BITS_PER_CHAR) -
    BitVec.ofNat target.usizeBits (input.length * 8)).toNat
  out := 0
  buf := bufSlice

theorem encodeBase32_eq_run (target : Target) (input bufSlice : List UInt8) :
    encodeBase32 target input bufSlice =
      (input.foldlM Encoder.push (Encoder.start target input bufSlice)).map Encoder.buf :=
  rfl

section Exact

variable (target : Target) {input bufSlice : List UInt8}

/-- The padding is what the buffer holds beyond the input, less than a character. -/
theorem Encoder.bits_start (exact : bufSlice.length = base32Size input.length) :
    (Encoder.start target input bufSlice).bits = bufSlice.length * 5 - input.length * 8 ∧
      (Encoder.start target input bufSlice).bits < 5 ∧
      input.length * 8 ≤ bufSlice.length * 5 := by
  have sizeEq : base32Size input.length = (input.length * 8 + 4) / 5 := rfl
  obtain ⟨padding, paddingEq⟩ := Nat.exists_eq_add_of_le
    (show input.length * 8 ≤ bufSlice.length * 5 by omega)
  have paddingFits : padding < 2 ^ target.usizeBits :=
    lt_of_lt_of_le (show padding < 2 ^ 16 by omega)
      (Nat.pow_le_pow_right (by decide) target.atLeast)
  -- Both bit counts may wrap, but their difference is the padding.
  have bitsEq : (Encoder.start target input bufSlice).bits = padding := by
    rw [Encoder.start, BITS_PER_CHAR, paddingEq, BitVec.ofNat_add, BitVec.add_comm,
      BitVec.add_sub_cancel, BitVec.toNat_ofNat, Nat.mod_eq_of_lt paddingFits]
  omega

/-- With a buffer of the right size the loop stays in bounds, fills the buffer and
leaves no bit pending. -/
theorem Encoder.foldlM_push_start (exact : bufSlice.length = base32Size input.length) :
    ∃ final, input.foldlM Encoder.push (Encoder.start target input bufSlice) = some final ∧
      final.bits = 0 ∧ final.out = bufSlice.length ∧
      final.buf = (Radix.digits 32 (base32Size input.length)
        (Radix.value 256 (input.map UInt8.toNat))).map encodeChar := by
  obtain ⟨padding, few, _⟩ := Encoder.bits_start target exact
  have start : (Encoder.start target input bufSlice).Spells bufSlice.length 0 :=
    ⟨by simp [Encoder.start], rfl, by simp [Encoder.start, Radix.digits]⟩
  have outStart : (Encoder.start target input bufSlice).out = 0 := rfl
  obtain ⟨final, folded, spells, finalFew, count⟩ := start.foldlM_push few input (by omega)
  have finished : final.bits = 0 := by omega
  have full : final.out = bufSlice.length := by omega
  refine ⟨final, folded, finished, full, ?_⟩
  have written := spells.written
  rw [finished, full, Nat.pow_zero, Nat.div_one, ← spells.length, List.take_length, spells.length,
    exact] at written
  exact written

/-- With a buffer of the right size the encoder stays in bounds and writes the
base-32 digits of its input read as a big-endian number, on every word size. -/
theorem encodeBase32_eq (exact : bufSlice.length = base32Size input.length) :
    encodeBase32 target input bufSlice =
      some ((Radix.digits 32 (base32Size input.length)
        (Radix.value 256 (input.map UInt8.toNat))).map encodeChar) := by
  obtain ⟨final, folded, _, _, written⟩ := Encoder.foldlM_push_start target exact
  rw [encodeBase32_eq_run, folded, Option.map_some, written]

end Exact

end Ferroid.Base32
