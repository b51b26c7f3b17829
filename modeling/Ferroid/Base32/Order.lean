import Ferroid.Base32.Interface

/-!
Contract: the three representations of a raw ID sort alike.

Owns that the alphabet is in ascending ASCII order, and that integers, their
big-endian bytes and their Base32 texts compare the same way.

Does not own the stored type of the PostgreSQL extension (`Pg.Ulid`).
-/

namespace Ferroid.Base32

open Ferroid.Library

/-! ## The alphabet -/

/-- The alphabet is written in ascending order of its character codes. -/
theorem encodeChar_lt_iff (left right : Nat) (leftSmall : left < 32) (rightSmall : right < 32) :
    encodeChar left < encodeChar right ↔ left < right := by
  have table : ∀ left < 32, ∀ right < 32,
      (encodeChar left < encodeChar right ↔ left < right) := by
    decide +kernel
  exact table left leftSmall right rightSmall

theorem encodeChar_injective (left right : Nat) (leftSmall : left < 32) (rightSmall : right < 32)
    (same : encodeChar left = encodeChar right) : left = right := by
  rw [← charValue_encodeChar leftSmall, same, charValue_encodeChar rightSmall]

/-! ## Integers, bytes and texts -/

section Raw

variable {width : Nat}

theorem toBeBytes_lt_iff (backing : IsBacking width) (a b : BitVec width) :
    toBeBytes a < toBeBytes b ↔ a < b := by
  have fits : ∀ raw : BitVec width, raw.toNat < 256 ^ SIZE width := by
    intro raw
    rw [backing.pow_eq]
    exact raw.isLt
  exact Radix.beBytes_lt_iff (fits a) (fits b)

/-- Texts have one length and one digit a character, so they compare as the
integers they spell. -/
theorem innerEncode_lt_iff (target : Target) (backing : IsBacking width) {a b : BitVec width}
    {textA textB : List UInt8} (encodedA : innerEncode target a = some textA)
    (encodedB : innerEncode target b = some textB) : textA < textB ↔ a < b := by
  have fits : ∀ raw : BitVec width, raw.toNat < 32 ^ BASE32_SIZE width :=
    fun raw => lt_of_lt_of_le raw.isLt backing.pow_le
  have proper : ∀ raw : BitVec width,
      ∀ digit ∈ Radix.digits 32 (BASE32_SIZE width) raw.toNat, digit < 32 :=
    fun raw digit member => Radix.digit_lt (by decide) member
  rw [innerEncode_eq target backing] at encodedA encodedB
  cases encodedA
  cases encodedB
  rw [Radix.map_lt_map_iff encodeChar_lt_iff encodeChar_injective (proper a) (proper b),
    Radix.digits_lt_iff (by decide) (fits a) (fits b)]
  exact Iff.rfl

end Raw

/-- Two IDs compare alike as integers, as big-endian bytes and as texts. -/
structure SortsAlike {ID : Type} {width : Nat} (toRaw : ID → BitVec width)
    (encode : ID → Option (List UInt8)) (a b : ID) : Prop where
  bytes : toRaw a < toRaw b ↔ toBeBytes (toRaw a) < toBeBytes (toRaw b)
  text : ∃ textA textB, encode a = some textA ∧ encode b = some textB ∧
    (toRaw a < toRaw b ↔ textA < textB)

theorem sortsAlike_of_backing (target : Target) {ID : Type} {width : Nat}
    (backing : IsBacking width) (toRaw : ID → BitVec width) (a b : ID) :
    SortsAlike toRaw (fun id => innerEncode target (toRaw id)) a b where
  bytes := (toBeBytes_lt_iff backing _ _).symm
  text := by
    have encodedA := innerEncode_eq target backing (toRaw a)
    have encodedB := innerEncode_eq target backing (toRaw b)
    exact ⟨_, _, encodedA, encodedB, (innerEncode_lt_iff target backing encodedA encodedB).symm⟩

end Ferroid.Base32
