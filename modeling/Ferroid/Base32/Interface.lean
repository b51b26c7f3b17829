import Ferroid.Base32.Crockford
import Ferroid.Id.Snowflake
import Ferroid.Id.Ulid

/-!
Contract: the Base32 text form and the integer serde form of IDs.

Owns `BeBytes`, `inner_encode_to_buf`, `inner_decode`, the checked `decode` of
both ID families, integer deserialization, the canonical spelling of a text, and
the round trips between IDs and texts.

Does not own the bit loops (`Base32.Crockford`) or the formatter types.
-/

namespace Ferroid.Base32

open Ferroid.Id
open Ferroid.Library

/-! ## Backing integers -/

/-- The integer types that implement `BeBytes`. -/
def IsBacking (width : Nat) : Prop := width = 32 ∨ width = 64 ∨ width = 128

instance (width : Nat) : Decidable (IsBacking width) :=
  inferInstanceAs (Decidable (_ ∨ _))

/-- `BeBytes::SIZE`. -/
def SIZE (width : Nat) : Nat := width / 8

/-- `BeBytes::BASE32_SIZE`. -/
def BASE32_SIZE (width : Nat) : Nat := base32Size (SIZE width)

def toBeBytes {width : Nat} (raw : BitVec width) : List UInt8 :=
  Radix.beBytes (SIZE width) raw.toNat

def fromBeBytes (width : Nat) (bytes : List UInt8) : BitVec width :=
  BitVec.ofNat width (Radix.value 256 (bytes.map UInt8.toNat))

/-- `inner_encode_to_buf` into a fresh `Base32Array`. -/
def innerEncode (target : Target) {width : Nat} (raw : BitVec width) : Option (List UInt8) :=
  encodeBase32 target (toBeBytes raw) (List.replicate (BASE32_SIZE width) 0)

def innerDecode (width : Nat) {E : Type} (bytes : List UInt8) :
    Option (Except (Error E) (BitVec width)) :=
  if bytes.length ≠ BASE32_SIZE width then
    some (.error (.decodeInvalidLen bytes.length))
  else
    decodeBase32 width bytes

/-! ## The ID families -/

/-- `decode` of an ID family with its own `from_raw` and `is_valid`. -/
def decodeChecked {ID : Type} {width : Nat} (fromRaw : BitVec width → ID) (isValid : ID → Bool)
    (input : List UInt8) : Option (Except (Error ID) ID) :=
  (innerDecode width input).map fun
    | .error error => .error error
    | .ok raw =>
        let decoded := fromRaw raw
        if !isValid decoded then
          .error (.decodeOverflow decoded)
        else
          .ok decoded

/-- `serde::Error`. -/
inductive SerdeError (E : Type) where
  | decodeOverflow (id : E)
  | base32Error (error : Error E)
deriving DecidableEq, Repr

/-- Deserialization from the integer `n` that the deserializer yields. -/
def asInt {ID : Type} {width : Nat} (fromRaw : BitVec width → ID) (isValid : ID → Bool)
    (n : BitVec width) : Except (SerdeError ID) ID :=
  let id := fromRaw n
  if !isValid id then
    .error (.decodeOverflow id)
  else
    .ok id

namespace Base32SnowExt

variable {layout : SnowflakeLayout}

def encode (target : Target) (id : SnowflakeId layout) : Option (List UInt8) :=
  innerEncode target id.toRaw

def decode (layout : SnowflakeLayout) :
    List UInt8 → Option (Except (Error (SnowflakeId layout)) (SnowflakeId layout)) :=
  decodeChecked SnowflakeId.fromRaw SnowflakeId.isValid

end Base32SnowExt

/-- `snow_as_int::deserialize`. -/
def SnowAsInt.deserialize {layout : SnowflakeLayout} :
    layout.Ty → Except (SerdeError (SnowflakeId layout)) (SnowflakeId layout) :=
  asInt SnowflakeId.fromRaw SnowflakeId.isValid

namespace Base32UlidExt

variable {layout : UlidLayout}

def encode (target : Target) (id : UlidId layout) : Option (List UInt8) :=
  innerEncode target id.toRaw

def decode (layout : UlidLayout) :
    List UInt8 → Option (Except (Error (UlidId layout)) (UlidId layout)) :=
  decodeChecked UlidId.fromRaw UlidId.isValid

end Base32UlidExt

/-- `ulid_as_int::deserialize`. -/
def UlidAsInt.deserialize {layout : UlidLayout} :
    layout.Ty → Except (SerdeError (UlidId layout)) (UlidId layout) :=
  asInt UlidId.fromRaw UlidId.isValid

/-! ## Sizes -/

section Sizes

variable {width : Nat}

theorem IsBacking.pow_eq (backing : IsBacking width) : 256 ^ SIZE width = 2 ^ width := by
  rcases backing with rfl | rfl | rfl <;> rfl

/-- Bits of the first character that lie inside the integer. -/
def leadingBits (width : Nat) : Nat := width - 5 * (BASE32_SIZE width - 1)

theorem IsBacking.split (backing : IsBacking width) :
    2 ^ width = 32 ^ (BASE32_SIZE width - 1) * 2 ^ leadingBits width ∧ 0 < BASE32_SIZE width ∧
      leadingBits width ≤ 5 := by
  rcases backing with rfl | rfl | rfl <;> decide

theorem IsBacking.pow_le (backing : IsBacking width) : 2 ^ width ≤ 32 ^ BASE32_SIZE width := by
  rcases backing with rfl | rfl | rfl <;> decide

end Sizes

/-! ## Raw values and texts -/

section Raw

variable {width : Nat} {raw : BitVec width}

theorem length_toBeBytes (raw : BitVec width) : (toBeBytes raw).length = SIZE width :=
  Radix.length_beBytes _ _

theorem value_toBeBytes (backing : IsBacking width) (raw : BitVec width) :
    Radix.value 256 ((toBeBytes raw).map UInt8.toNat) = raw.toNat := by
  rw [toBeBytes, Radix.value_beBytes, backing.pow_eq, Nat.mod_eq_of_lt raw.isLt]

theorem fromBeBytes_toBeBytes (backing : IsBacking width) (raw : BitVec width) :
    fromBeBytes width (toBeBytes raw) = raw := by
  rw [fromBeBytes, value_toBeBytes backing, BitVec.ofNat_toNat, BitVec.setWidth_eq]

theorem toBeBytes_fromBeBytes (backing : IsBacking width) {bytes : List UInt8}
    (sized : bytes.length = SIZE width) : toBeBytes (fromBeBytes width bytes) = bytes := by
  have small : Radix.value 256 (bytes.map UInt8.toNat) < 2 ^ width := by
    have bound := Radix.value_lt (Radix.toNat_proper bytes)
    rw [List.length_map, sized, backing.pow_eq] at bound
    exact bound
  rw [toBeBytes, fromBeBytes, BitVec.toNat_ofNat, Nat.mod_eq_of_lt small, ← sized,
    Radix.beBytes_value]

/-- The text of an integer: its base-32 digits, most significant first. -/
theorem innerEncode_eq (target : Target) (backing : IsBacking width) (raw : BitVec width) :
    innerEncode target raw =
      some ((Radix.digits 32 (BASE32_SIZE width) raw.toNat).map encodeChar) := by
  have sized : (List.replicate (BASE32_SIZE width) (0 : UInt8)).length =
      base32Size (toBeBytes raw).length := by
    rw [List.length_replicate, length_toBeBytes]
    rfl
  rw [innerEncode, encodeBase32_eq target sized, value_toBeBytes backing, length_toBeBytes]
  rfl

/-- What `inner_decode` accepts, and the integer it returns. -/
theorem innerDecode_eq_ok_iff {E : Type} {bytes : List UInt8} :
    innerDecode width (E := E) bytes = some (.ok raw) ↔
      bytes.length = BASE32_SIZE width ∧ (∀ b ∈ bytes, charValue b < 32) ∧
        raw = BitVec.ofNat width (Radix.value 32 (bytes.map charValue)) := by
  by_cases sized : bytes.length = BASE32_SIZE width
  · rw [innerDecode, if_neg (not_not.mpr sized)]
    constructor
    · intro decoded
      have accepted := accepted_of_decodeBase32 decoded
      rw [decodeBase32_of_accepted width accepted] at decoded
      exact ⟨sized, accepted, (Except.ok.inj (Option.some.inj decoded)).symm⟩
    · rintro ⟨_, accepted, rfl⟩
      exact decodeBase32_of_accepted width accepted
  · rw [innerDecode, if_pos sized]
    simp [sized]

/-- Every integer survives being written and read, reserved bits or not. -/
theorem innerDecode_innerEncode (target : Target) (backing : IsBacking width)
    (raw : BitVec width) {E : Type} {text : List UInt8}
    (encoded : innerEncode target raw = some text) :
    innerDecode width (E := E) text = some (.ok raw) := by
  rw [innerEncode_eq target backing] at encoded
  cases encoded
  have charValues : ((Radix.digits 32 (BASE32_SIZE width) raw.toNat).map encodeChar).map
      charValue = Radix.digits 32 (BASE32_SIZE width) raw.toNat := by
    rw [List.map_map]
    conv_rhs => rw [← List.map_id (Radix.digits 32 (BASE32_SIZE width) raw.toNat)]
    apply List.map_congr_left
    intro digit member
    exact charValue_encodeChar (Radix.digit_lt (by decide) member)
  refine innerDecode_eq_ok_iff.mpr ⟨by simp, ?_, ?_⟩
  · intro b member
    obtain ⟨digit, digitMember, rfl⟩ := List.mem_map.mp member
    have small := Radix.digit_lt (by decide) digitMember
    rw [charValue_encodeChar small]
    exact small
  · rw [charValues, Radix.value_digits,
      Nat.mod_eq_of_lt (lt_of_lt_of_le raw.isLt backing.pow_le), BitVec.ofNat_toNat,
      BitVec.setWidth_eq]

/-! ## Canonical spelling -/

/-- The canonical spelling of a text: aliases and case resolved, and the bits of
the first character that lie above the integer cleared. -/
def canonical (width : Nat) : List UInt8 → List UInt8
  | [] => []
  | first :: rest =>
      encodeChar (charValue first % 2 ^ leadingBits width) :: rest.map canonicalChar

/-- Writing what was read spells it canonically. -/
theorem innerEncode_innerDecode (target : Target) (backing : IsBacking width) {E : Type}
    {bytes : List UInt8} (decoded : innerDecode width (E := E) bytes = some (.ok raw)) :
    innerEncode target raw = some (canonical width bytes) := by
  obtain ⟨sized, accepted, rfl⟩ := innerDecode_eq_ok_iff.mp decoded
  obtain ⟨split, nonempty, leadingSmall⟩ := backing.split
  rw [innerEncode_eq target backing, BitVec.toNat_ofNat]
  cases bytes with
  | nil =>
      rw [← sized] at nonempty
      cases nonempty
  | cons first rest =>
      have restLength : (rest.map charValue).length = BASE32_SIZE width - 1 := by
        rw [List.length_map, ← sized, List.length_cons, Nat.add_sub_cancel]
      have restProper : ∀ digit ∈ rest.map charValue, digit < 32 := by
        intro digit member
        obtain ⟨b, bMember, rfl⟩ := List.mem_map.mp member
        exact accepted b (by simp [bMember])
      have proper : ∀ digit ∈ charValue first % 2 ^ leadingBits width :: rest.map charValue,
          digit < 32 := by
        intro digit member
        rcases List.mem_cons.mp member with rfl | later
        · exact lt_of_lt_of_le (Nat.mod_lt _ (Nat.two_pow_pos _))
            (Nat.pow_le_pow_right (by decide) leadingSmall)
        · exact restProper digit later
      have wholeLength : (charValue first % 2 ^ leadingBits width :: rest.map charValue).length =
          BASE32_SIZE width := by
        rw [List.length_cons, restLength, Nat.sub_add_cancel nonempty]
      have spelled : (rest.map charValue).map encodeChar = rest.map canonicalChar := by
        rw [List.map_map]
        apply List.map_congr_left
        intro b member
        exact encodeChar_charValue (accepted b (by simp [member]))
      rw [split, List.map_cons, ← restLength, Radix.value_cons_mod (by decide) _ _ restProper,
        ← wholeLength, Radix.digits_value (by decide) proper, List.map_cons, spelled]
      rfl

end Raw

/-! ## IDs and texts -/

/-- The text form of an ID family is exact: reading what was written gives the ID
or reports it as overflowing, the integer form gives the same verdict, writing
what was read spells it canonically, and texts of one ID are those with one
canonical spelling. -/
structure ExactText {ID : Type} {width : Nat} (fromRaw : BitVec width → ID) (isValid : ID → Bool)
    (encode : ID → Option (List UInt8)) (decode : List UInt8 → Option (Except (Error ID) ID))
    (deserialize : BitVec width → Except (SerdeError ID) ID) : Prop where
  decode_encode : ∀ n, (encode (fromRaw n)).bind decode =
    some (if isValid (fromRaw n) then .ok (fromRaw n) else .error (.decodeOverflow (fromRaw n)))
  deserialize_eq : ∀ n, deserialize n =
    if isValid (fromRaw n) then .ok (fromRaw n) else .error (.decodeOverflow (fromRaw n))
  encode_decode : ∀ bytes id, decode bytes = some (.ok id) →
    encode id = some (canonical width bytes)
  same_iff : ∀ left right leftId rightId, decode left = some (.ok leftId) →
    decode right = some (.ok rightId) →
      (leftId = rightId ↔ canonical width left = canonical width right)

/-- The checked decoder returns only what the raw decoder read. -/
theorem innerDecode_of_decodeChecked {ID : Type} {width : Nat} {fromRaw : BitVec width → ID}
    {isValid : ID → Bool} {bytes : List UInt8} {id : ID}
    (decoded : decodeChecked fromRaw isValid bytes = some (.ok id)) :
    ∃ raw, innerDecode width (E := ID) bytes = some (.ok raw) ∧ id = fromRaw raw := by
  obtain ⟨outcome, inner, checked⟩ := Option.map_eq_some_iff.mp decoded
  cases outcome with
  | error error => cases checked
  | ok raw =>
      refine ⟨raw, inner, ?_⟩
      simp only at checked
      split at checked
      · cases checked
      · exact (Except.ok.inj checked).symm

/-- Both families are wrappers of their integer, so exactness is a property of
the integer loops. -/
theorem exactText_of_backing (target : Target) {ID : Type} {width : Nat}
    (backing : IsBacking width) (fromRaw : BitVec width → ID) (toRaw : ID → BitVec width)
    (isValid : ID → Bool) (toRaw_fromRaw : ∀ raw, toRaw (fromRaw raw) = raw) :
    ExactText fromRaw isValid (fun id => innerEncode target (toRaw id))
      (decodeChecked fromRaw isValid) (asInt fromRaw isValid) where
  decode_encode := by
    intro n
    have encoded := innerEncode_eq target backing n
    have decoded := innerDecode_innerEncode target backing n (E := ID) encoded
    rw [toRaw_fromRaw, encoded, Option.bind_some, decodeChecked, decoded, Option.map_some]
    cases valid : isValid (fromRaw n) <;> simp [valid]
  deserialize_eq := by
    intro n
    rw [asInt]
    cases isValid (fromRaw n) <;> rfl
  encode_decode := by
    intro bytes id decoded
    obtain ⟨raw, inner, rfl⟩ := innerDecode_of_decodeChecked decoded
    rw [toRaw_fromRaw]
    exact innerEncode_innerDecode target backing inner
  same_iff := by
    intro left right leftId rightId leftDecoded rightDecoded
    obtain ⟨leftRaw, leftInner, rfl⟩ := innerDecode_of_decodeChecked leftDecoded
    obtain ⟨rightRaw, rightInner, rfl⟩ := innerDecode_of_decodeChecked rightDecoded
    have leftText := innerEncode_innerDecode target backing leftInner
    have rightText := innerEncode_innerDecode target backing rightInner
    constructor
    · intro same
      have sameRaw : leftRaw = rightRaw := by
        rw [← toRaw_fromRaw leftRaw, same, toRaw_fromRaw]
      rw [sameRaw, rightText] at leftText
      exact (Option.some.inj leftText).symm
    · intro same
      rw [same] at leftText
      have leftRead := innerDecode_innerEncode target backing leftRaw (E := ID) leftText
      rw [innerDecode_innerEncode target backing rightRaw rightText] at leftRead
      rw [Except.ok.inj (Option.some.inj leftRead)]

/-- Base32 text and integer form of every Snowflake and ULID layout over a 32-,
64- or 128-bit integer, on every target. -/
theorem base32_exact (target : Target) :
    (∀ layout : SnowflakeLayout, IsBacking layout.width →
      ExactText (SnowflakeId.fromRaw : layout.Ty → SnowflakeId layout) SnowflakeId.isValid
        (Base32SnowExt.encode target) (Base32SnowExt.decode layout) SnowAsInt.deserialize) ∧
      ∀ layout : UlidLayout, IsBacking layout.width →
        ExactText (UlidId.fromRaw : layout.Ty → UlidId layout) UlidId.isValid
          (Base32UlidExt.encode target) (Base32UlidExt.decode layout) UlidAsInt.deserialize := by
  constructor
  · intro layout backing
    exact exactText_of_backing target backing SnowflakeId.fromRaw SnowflakeId.toRaw
      SnowflakeId.isValid fun _ => rfl
  · intro layout backing
    exact exactText_of_backing target backing UlidId.fromRaw UlidId.toRaw
      UlidId.isValid fun _ => rfl

/-- A Twitter text with lower-case letters, aliases and the bit above the integer
set, against its canonical spelling. -/
theorem base32_exact_twitter :
    let text : List UInt8 := ['h', '3', '9', '5', '3', 'm', 'g', 'L', '6', 'd', 'j', 'd',
      'o'].map Char.toUInt8
    let spelling : List UInt8 := ['1', '3', '9', '5', '3', 'M', 'G', '1', '6', 'D', 'J', 'D',
      '0'].map Char.toUInt8
    ∃ id, Base32SnowExt.decode SnowflakeTwitterId text = some (.ok id) ∧
      Base32SnowExt.encode ⟨64, by decide⟩ id = some spelling := by
  intro text spelling
  have accepted : (Base32SnowExt.decode SnowflakeTwitterId text).map Except.isOk = some true := by
    decide +kernel
  obtain ⟨outcome, decoded, ok⟩ := Option.map_eq_some_iff.mp accepted
  cases outcome with
  | error error => cases ok
  | ok id =>
      refine ⟨id, decoded, ?_⟩
      rw [((base32_exact ⟨64, by decide⟩).1 SnowflakeTwitterId (by decide)).encode_decode text id
        decoded]
      decide +kernel

end Ferroid.Base32
