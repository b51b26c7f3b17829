import Ferroid.Base32.Verdict

/-!
Contract: how IDs meet strings in a Rust program.

Owns the messages of `Error`, equality of an ID and of its formatter with a string, the
Base32 serde modules, and that all of them agree with `decode`: which strings equal an
ID, when an ID equals its own text, and what a serialized field reads back as.

Does not own `encode` and `decode` (`Base32.Interface`), or the `Debug` form of an ID.
-/

namespace Ferroid.Base32

open Ferroid.Id
open Ferroid.Library

/-! ## Messages -/

/-- `Display` of `Error`; `debug` is the `Debug` form of an ID. -/
def Error.fmt {E : Type} (debug : E → String) : Error E → String
  | .decodeInvalidAscii byte index =>
      "invalid ascii byte (" ++ toString byte ++ ") at index (" ++ toString index ++ ")"
  | .decodeInvalidLen len => "invalid length: " ++ toString len
  | .decodeOverflow id => "decode overflow: " ++ debug id

/-! ## Strings -/

section Strings

variable {ID : Type}

/-- `PartialEq<str>` of an ID: the string is read, the ID is not written. -/
def eqStr [DecidableEq ID] (decode : List UInt8 → Option (Except (Error ID) ID)) (self : ID)
    (other : List UInt8) : Option Bool :=
  (decode other).map fun
    | .ok id => id == self
    | .error _ => false

/-- `PartialEq<str>` of a formatter: the ID is written, the string is not read. -/
def formatterEqStr (encode : ID → Option (List UInt8)) (self : ID) (other : List UInt8) :
    Option Bool :=
  (encode self).map fun text => text == other

/-- `Base32Visitor::visit_str`. -/
def visitStr (decode : List UInt8 → Option (Except (Error ID) ID)) (v : List UInt8) :
    Option (Except (SerdeError ID) ID) :=
  (decode v).map fun outcome => outcome.mapError .base32Error

end Strings

namespace Base32SnowExt

variable {layout : SnowflakeLayout}

def eqStr : SnowflakeId layout → List UInt8 → Option Bool := Base32.eqStr (decode layout)

/-- `PartialEq<str>` of `Base32SnowFormatter`. -/
def formatterEqStr (target : Target) : SnowflakeId layout → List UInt8 → Option Bool :=
  Base32.formatterEqStr (encode target)

end Base32SnowExt

/-- `snow_as_base32::deserialize`. -/
def SnowAsBase32.deserialize (layout : SnowflakeLayout) :
    List UInt8 → Option (Except (SerdeError (SnowflakeId layout)) (SnowflakeId layout)) :=
  visitStr (Base32SnowExt.decode layout)

namespace Base32UlidExt

variable {layout : UlidLayout}

def eqStr : UlidId layout → List UInt8 → Option Bool := Base32.eqStr (decode layout)

/-- `PartialEq<str>` of `Base32UlidFormatter`. -/
def formatterEqStr (target : Target) : UlidId layout → List UInt8 → Option Bool :=
  Base32.formatterEqStr (encode target)

end Base32UlidExt

/-- `ulid_as_base32::deserialize`. -/
def UlidAsBase32.deserialize (layout : UlidLayout) :
    List UInt8 → Option (Except (SerdeError (UlidId layout)) (UlidId layout)) :=
  visitStr (Base32UlidExt.decode layout)

/-! ## What is read -/

section Read

variable {ID : Type} {decode : List UInt8 → Option (Except (Error ID) ID)}
  {encode : ID → Option (List UInt8)} {id : ID} {s : List UInt8}

theorem eqStr_eq_true_iff [DecidableEq ID] :
    eqStr decode id s = some true ↔ decode s = some (.ok id) := by
  unfold eqStr
  constructor
  · intro equal
    obtain ⟨outcome, decoded, same⟩ := Option.map_eq_some_iff.mp equal
    cases outcome with
    | error error => cases same
    | ok other =>
        have isId : other = id := by simpa using same
        rw [decoded, isId]
  · intro decoded
    simp [decoded]

theorem visitStr_eq_ok_iff : visitStr decode s = some (.ok id) ↔ decode s = some (.ok id) := by
  unfold visitStr
  constructor
  · intro visited
    obtain ⟨outcome, decoded, same⟩ := Option.map_eq_some_iff.mp visited
    cases outcome with
    | error error => cases same
    | ok other =>
        cases same
        exact decoded
  · intro decoded
    rw [decoded]
    rfl

theorem formatterEqStr_eq_true_iff :
    formatterEqStr encode id s = some true ↔ encode id = some s := by
  unfold formatterEqStr
  constructor
  · intro equal
    obtain ⟨text, encoded, same⟩ := Option.map_eq_some_iff.mp equal
    rw [encoded, beq_iff_eq.mp same]
  · intro encoded
    simp [encoded]

end Read

/-- What the checked decoder accepts, in terms of the texts: a valid ID, spelled over the
alphabet, aliases and surplus bits included. -/
theorem decodeChecked_eq_ok_iff (target : Target) {ID : Type} {width : Nat}
    (backing : IsBacking width) (fromRaw : BitVec width → ID) (toRaw : ID → BitVec width)
    (isValid : ID → Bool) (toRaw_fromRaw : ∀ raw, toRaw (fromRaw raw) = raw)
    (fromRaw_toRaw : ∀ id, fromRaw (toRaw id) = id) (id : ID) (s : List UInt8) :
    decodeChecked fromRaw isValid s = some (.ok id) ↔
      isValid id = true ∧ s.length = (width + 4) / 5 ∧ (∀ b ∈ s, isCrockford b = true) ∧
        innerEncode target (toRaw id) = some (canonical width s) := by
  constructor
  · intro decoded
    obtain ⟨raw, inner, rfl⟩ := innerDecode_of_decodeChecked decoded
    obtain ⟨sized, accepted, value⟩ := innerDecode_eq_ok_iff.mp inner
    rw [backing.BASE32_SIZE_eq] at sized
    have crockford : ∀ b ∈ s, isCrockford b = true :=
      fun b member => (isCrockford_iff b).mpr (accepted b member)
    refine ⟨?_, sized, crockford, ?_⟩
    · rw [decodeChecked_of_accepted backing fromRaw isValid sized crockford value] at decoded
      by_contra invalid
      rw [if_neg invalid] at decoded
      cases decoded
    · rw [toRaw_fromRaw]
      exact innerEncode_innerDecode target backing inner
  · rintro ⟨valid, sized, accepted, spelled⟩
    -- The string reads as some raw value; its canonical spelling tells which.
    have decoded := decodeChecked_of_accepted backing fromRaw isValid sized accepted rfl
    have inner : innerDecode width (E := ID) s =
        some (.ok (BitVec.ofNat width (Radix.value 32 (s.map charValue)))) := by
      rw [innerDecode_eq_ok_iff]
      refine ⟨?_, ?_, rfl⟩
      · rw [backing.BASE32_SIZE_eq]
        exact sized
      · exact fun b member => (isCrockford_iff b).mp (accepted b member)
    have rewritten := innerEncode_innerDecode target backing inner
    have read := innerDecode_innerEncode target backing _ (E := ID) rewritten
    rw [innerDecode_innerEncode target backing _ spelled] at read
    have isRaw := Except.ok.inj (Option.some.inj read)
    rw [← isRaw, fromRaw_toRaw, if_pos valid] at decoded
    exact decoded

/-! ## Agreement -/

/-- Everything that takes a string agrees with the text form. A string equals an ID when
the ID is valid and the string spells it, in any case and with any alias, and those
strings are the ones that parse as the ID; the formatter equals the canonical spelling
only; a serialized field reads back as the ID that its string equals; and both serde
forms restore exactly the valid IDs. -/
structure ExactStrings {ID : Type} (width : Nat) (toRaw : ID → BitVec width)
    (isValid : ID → Bool) (encode : ID → Option (List UInt8))
    (decode : List UInt8 → Option (Except (Error ID) ID))
    (eqStr formatterEqStr : ID → List UInt8 → Option Bool)
    (asInt : BitVec width → Except (SerdeError ID) ID)
    (asBase32 : List UInt8 → Option (Except (SerdeError ID) ID)) : Prop where
  eqStr_iff : ∀ id s, eqStr id s = some true ↔
    isValid id = true ∧ s.length = (width + 4) / 5 ∧ (∀ b ∈ s, isCrockford b = true) ∧
      encode id = some (canonical width s)
  decided : ∀ id s, eqStr id s ≠ none ∧ formatterEqStr id s ≠ none
  decode_iff : ∀ id s, decode s = some (.ok id) ↔ eqStr id s = some true
  of_formatter : ∀ id s, formatterEqStr id s = some true →
    (eqStr id s = some true ↔ isValid id = true)
  formatter_of : ∀ id s, eqStr id s = some true →
    (formatterEqStr id s = some true ↔ canonical width s = s)
  asBase32_iff : ∀ id s, asBase32 s = some (.ok id) ↔ eqStr id s = some true
  restored : ∀ id, (encode id).bind asBase32 =
      some (if isValid id then .ok id else .error (.base32Error (.decodeOverflow id))) ∧
    asInt (toRaw id) = if isValid id then .ok id else .error (.decodeOverflow id)

/-- Both families wrap their integer, so one proof serves both. -/
theorem exactStrings_of_backing (target : Target) {ID : Type} [DecidableEq ID] {width : Nat}
    (backing : IsBacking width) (fromRaw : BitVec width → ID) (toRaw : ID → BitVec width)
    (isValid : ID → Bool) (reservedBits : Nat) (toRaw_fromRaw : ∀ raw, toRaw (fromRaw raw) = raw)
    (fromRaw_toRaw : ∀ id, fromRaw (toRaw id) = id)
    (isValid_iff : ∀ raw, isValid (fromRaw raw) = true ↔ ¬ ReservedBitSet reservedBits raw) :
    ExactStrings width toRaw isValid (fun id => innerEncode target (toRaw id))
      (decodeChecked fromRaw isValid) (eqStr (decodeChecked fromRaw isValid))
      (formatterEqStr fun id => innerEncode target (toRaw id)) (asInt fromRaw isValid)
      (visitStr (decodeChecked fromRaw isValid)) := by
  have exactText := exactText_of_backing target backing fromRaw toRaw isValid toRaw_fromRaw
  have exactDecode := exactDecode_of_backing backing fromRaw isValid reservedBits isValid_iff
  have equals : ∀ id s, eqStr (decodeChecked fromRaw isValid) id s = some true ↔
      isValid id = true ∧ s.length = (width + 4) / 5 ∧ (∀ b ∈ s, isCrockford b = true) ∧
        innerEncode target (toRaw id) = some (canonical width s) := by
    intro id s
    rw [eqStr_eq_true_iff]
    exact decodeChecked_eq_ok_iff target backing fromRaw toRaw isValid toRaw_fromRaw
      fromRaw_toRaw id s
  have restored : ∀ id, (innerEncode target (toRaw id)).bind (decodeChecked fromRaw isValid) =
      some (if isValid id then .ok id else .error (.decodeOverflow id)) := by
    intro id
    have read := exactText.decode_encode (toRaw id)
    rw [fromRaw_toRaw] at read
    exact read
  refine ⟨equals, ?_, fun id s => eqStr_eq_true_iff.symm, ?_, ?_, ?_, ?_⟩
  · intro id s
    constructor
    · rw [eqStr, Ne, Option.map_eq_none_iff]
      exact exactDecode.neverPanics s
    · rw [formatterEqStr, innerEncode_eq target backing, Option.map_some]
      exact Option.some_ne_none _
  · intro id s written
    rw [formatterEqStr_eq_true_iff] at written
    have read := restored id
    rw [written, Option.bind_some] at read
    rw [eqStr_eq_true_iff, read]
    cases isValid id <;> simp
  · intro id s equal
    obtain ⟨_, _, _, spelled⟩ := (equals id s).mp equal
    rw [formatterEqStr_eq_true_iff, spelled]
    simp
  · intro id s
    rw [visitStr_eq_ok_iff, eqStr_eq_true_iff]
  · intro id
    constructor
    · rw [innerEncode_eq target backing, Option.bind_some]
      have read := restored id
      rw [innerEncode_eq target backing, Option.bind_some] at read
      rw [visitStr, read, Option.map_some]
      cases isValid id <;> rfl
    · have read := exactText.deserialize_eq (toRaw id)
      rw [fromRaw_toRaw] at read
      exact read

/-- Strings and IDs of every Snowflake and ULID layout over a 32-, 64- or 128-bit
integer, on every target. -/
theorem strings_agree_with_decode (target : Target) :
    (∀ layout : SnowflakeLayout, IsBacking layout.width →
      ExactStrings layout.width SnowflakeId.toRaw SnowflakeId.isValid
        (Base32SnowExt.encode target) (Base32SnowExt.decode layout) Base32SnowExt.eqStr
        (Base32SnowExt.formatterEqStr target) SnowAsInt.deserialize
        (SnowAsBase32.deserialize layout)) ∧
      ∀ layout : UlidLayout, IsBacking layout.width →
        ExactStrings layout.width UlidId.toRaw UlidId.isValid
          (Base32UlidExt.encode target) (Base32UlidExt.decode layout) Base32UlidExt.eqStr
          (Base32UlidExt.formatterEqStr target) UlidAsInt.deserialize
          (UlidAsBase32.deserialize layout) := by
  constructor
  · intro layout backing
    exact exactStrings_of_backing target backing SnowflakeId.fromRaw SnowflakeId.toRaw
      SnowflakeId.isValid layout.reservedBits (fun _ => rfl) (fun _ => rfl)
      SnowflakeId.isValid_iff_reserved
  · intro layout backing
    exact exactStrings_of_backing target backing UlidId.fromRaw UlidId.toRaw UlidId.isValid
      layout.reservedBits (fun _ => rfl) (fun _ => rfl) UlidId.isValid_iff_reserved

/-- A Twitter ID with its reserved bit set prints a text that it does not equal and that
no field reads back. -/
theorem strings_agree_with_decode_reserved :
    let id : SnowflakeId SnowflakeTwitterId := SnowflakeId.fromRaw (BitVec.allOnes 64)
    ∃ text, Base32SnowExt.encode ⟨64, by decide⟩ id = some text ∧
      Base32SnowExt.formatterEqStr ⟨64, by decide⟩ id text = some true ∧
      Base32SnowExt.eqStr id text ≠ some true ∧
      SnowAsBase32.deserialize SnowflakeTwitterId text =
        some (.error (.base32Error (.decodeOverflow id))) := by
  intro id
  have invalid : id.isValid = false := by decide
  have exact := (strings_agree_with_decode ⟨64, by decide⟩).1 SnowflakeTwitterId (by decide)
  have written := innerEncode_eq ⟨64, by decide⟩ (by decide : IsBacking 64) id.toRaw
  have formatted := formatterEqStr_eq_true_iff.mpr written
  refine ⟨_, written, formatted, ?_, ?_⟩
  · intro equal
    rw [(exact.of_formatter id _ formatted).mp equal] at invalid
    cases invalid
  · have read := (exact.restored id).1
    rw [invalid, show Base32SnowExt.encode ⟨64, by decide⟩ id = _ from written,
      Option.bind_some] at read
    exact read

end Ferroid.Base32
