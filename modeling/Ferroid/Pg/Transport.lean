import Mathlib.Data.List.TakeWhile
import Ferroid.Base32.Text
import Ferroid.Pg.Cast

/-!
Contract: how a stored ULID leaves PostgreSQL and comes back.

Owns the input and output functions, the casts from and to text and `bytea`, the binary
receive and send functions and `ulid_is_valid`, with their error texts; that each way out
has its exact way back; and which strings and messages are taken at all.

Does not own the `pgrx` string buffer or PostgreSQL's message cursor: what the extension
calls of them enters as a parameter with its documented behaviour.
-/

namespace Ferroid.Pg

open Ferroid.Base32
open Ferroid.Id (UlidId)
open Ferroid.Library

/-! ## Text -/

/-- `core::ffi::CStr`. -/
structure CStr where
  toBytes : List UInt8
  noNul : 0 ∉ toBytes

/-- What `ulid_out` calls of the `StringInfo` of `pgrx`. -/
structure StringInfo where
  Buffer : Type
  withCapacity : (len : Int32) → Buffer
  pushBytes : Buffer → List UInt8 → Buffer
  leakCstr : Buffer → CStr

/-- Bytes without a NUL that are pushed into a new buffer come out as they are. -/
structure StringInfo.Documented (info : StringInfo) : Prop where
  leaks : ∀ len bytes, 0 ≤ len → 0 ∉ bytes →
    (info.leakCstr (info.pushBytes (info.withCapacity len) bytes)).toBytes = bytes

/-- `InnerULID::decode` of an argument, or an error that starts with `message`; `debug` is
the `Debug` form of a ULID. -/
def decodeText (message : String) (debug : InnerULID → String) (bytes : List UInt8) :
    Option (Except String ULID) :=
  (Base32UlidExt.decode Id.ULID bytes).map fun outcome =>
    (outcome.map ULID.fromInner).mapError fun e => message ++ e.fmt debug

def ulidIn (debug : InnerULID → String) (input : CStr) : Option (Except String ULID) :=
  decodeText "invalid ULID: " debug input.toBytes

def ulidOut (target : Target) (info : StringInfo) (ulid : ULID) : Option CStr :=
  (Base32UlidExt.encode target ulid.toInner).map fun bytes =>
    let len := Int32.ofNat bytes.length
    info.leakCstr (info.pushBytes (info.withCapacity len) bytes)

def textToUlid (debug : InnerULID → String) (text : List UInt8) : Option (Except String ULID) :=
  decodeText "invalid ULID text: " debug text

def ulidToText (target : Target) (ulid : ULID) : Option (List UInt8) :=
  Base32UlidExt.encode target ulid.toInner

def ulidIsValid (text : List UInt8) : Option Bool :=
  (Base32UlidExt.decode Id.ULID text).map Except.isOk

/-! ## Bytes -/

def byteaToUlid (bytes : List UInt8) : Except String ULID :=
  if sized : bytes.length = SIZE then
    .ok ⟨bytes, sized⟩
  else
    .error ("invalid bytea length for ulid: expected " ++ toString SIZE ++ " bytes, got " ++
      toString bytes.length)

def ulidToBytea (ulid : ULID) : List UInt8 := ulid.bytes

/-- `pg_sys::StringInfoData`: a received message and how far it has been read. -/
structure StringInfoData where
  data : List UInt8
  cursor : Nat
deriving DecidableEq, Repr

/-- What `ulid_recv` calls of PostgreSQL's `pqformat`; `pq_getmsgbytes` points to as many
bytes as were asked for. -/
structure PqFormat where
  pqGetmsgbytes : StringInfoData → (datalen : Nat) →
    Except String ({ bytes : List UInt8 // bytes.length = datalen } × StringInfoData)
  pqGetmsgend : StringInfoData → Except String Unit

/-- `pq_getmsgbytes` reads at the cursor and advances it, or fails for lack of data;
`pq_getmsgend` fails unless the message has been read to its end. -/
structure PqFormat.Documented (pq : PqFormat) : Prop where
  reads : ∀ msg datalen, msg.cursor + datalen ≤ msg.data.length →
    ∃ bytes, pq.pqGetmsgbytes msg datalen =
        .ok (bytes, { msg with cursor := msg.cursor + datalen }) ∧
      bytes.val = (msg.data.drop msg.cursor).take datalen
  insufficient : ∀ msg datalen, msg.data.length < msg.cursor + datalen →
    ∃ error, pq.pqGetmsgbytes msg datalen = .error error
  atEnd : ∀ msg, pq.pqGetmsgend msg = .ok () ↔ msg.cursor = msg.data.length

def ulidRecv (pq : PqFormat) (internal : Option StringInfoData) : Except String ULID := do
  let buf ← unwrapOrError "ulid_recv: NULL internal buffer" internal
  let (src, buf) ← pq.pqGetmsgbytes buf SIZE
  let out := ULID.mk src.val src.property
  pq.pqGetmsgend buf
  return out

def ulidSend (ulid : ULID) : List UInt8 := ulidToBytea ulid

/-! ## Reading a text -/

section Reading

variable {message : String} {debug : InnerULID → String} {bytes : List UInt8} {ulid : ULID}

theorem exactDecode_ULID :
    ExactDecode (UlidId.fromRaw : Id.ULID.Ty → InnerULID) 0 (Base32UlidExt.decode Id.ULID) :=
  exactDecode_of_backing ULID.isBacking_ULID UlidId.fromRaw UlidId.isValid 0
    UlidId.isValid_iff_reserved

/-- Every 128-bit value is a valid ULID. -/
theorem not_reservedBitSet (raw : Id.ULID.Ty) : ¬ ReservedBitSet 0 raw := by
  rw [reservedBitSet_iff, not_not]
  exact raw.isLt

theorem decodeText_eq_ok_iff : decodeText message debug bytes = some (.ok ulid) ↔
    Base32UlidExt.decode Id.ULID bytes = some (.ok ulid.toInner) := by
  unfold decodeText
  constructor
  · intro decoded
    obtain ⟨outcome, read, same⟩ := Option.map_eq_some_iff.mp decoded
    cases outcome with
    | error error => cases same
    | ok inner =>
        have isUlid : ULID.fromInner inner = ulid := Except.ok.inj same
        rw [read, ← isUlid, ULID.toInner_fromInner]
  · intro decoded
    rw [decoded, Option.map_some]
    show some (Except.ok (ULID.fromInner ulid.toInner)) = _
    rw [ULID.fromInner_toInner]

/-- What a text argument is taken as. -/
theorem decodeText_accepts (target : Target) : decodeText message debug bytes = some (.ok ulid) ↔
    bytes.length = 26 ∧ (∀ b ∈ bytes, isCrockford b = true) ∧
      ulidToText target ulid = some (canonical 128 bytes) := by
  have valid : ulid.toInner.isValid = true :=
    (UlidId.isValid_iff_reserved ulid.toInner.toRaw).mpr (not_reservedBitSet _)
  have accepts := decodeChecked_eq_ok_iff target ULID.isBacking_ULID UlidId.fromRaw
    UlidId.toRaw UlidId.isValid (fun _ => rfl) (fun _ => rfl) ulid.toInner bytes
  rw [decodeText_eq_ok_iff]
  refine accepts.trans ?_
  constructor
  · rintro ⟨_, sized, accepted, spelled⟩
    exact ⟨sized, accepted, spelled⟩
  · rintro ⟨sized, accepted, spelled⟩
    exact ⟨valid, sized, accepted, spelled⟩

/-- Every 26 characters over the alphabet are some ULID. -/
theorem exists_decodeText (sized : bytes.length = 26)
    (accepted : ∀ b ∈ bytes, isCrockford b = true) (debug : InnerULID → String) :
    ∃ ulid, ∀ message, decodeText message debug bytes = some (.ok ulid) := by
  have decoded := exactDecode_ULID.accepted bytes sized accepted _ rfl (not_reservedBitSet _)
  refine ⟨ULID.fromInner (UlidId.fromRaw
    (BitVec.ofNat Id.ULID.width (Radix.value 32 (bytes.map charValue)))), fun message => ?_⟩
  rw [decodeText_eq_ok_iff, ULID.toInner_fromInner]
  exact decoded

/-- The two ways in which a text argument is refused. -/
theorem decodeText_refuses {error : String} :
    decodeText message debug bytes = some (.error error) ↔
      (bytes.length ≠ 26 ∧ error = message ++ ("invalid length: " ++ toString bytes.length)) ∨
        bytes.length = 26 ∧ ∃ byte index, FirstInvalid bytes byte index ∧
          error = message ++ ("invalid ascii byte (" ++ toString byte ++ ") at index (" ++
            toString index ++ ")") := by
  by_cases sized : bytes.length = 26
  · by_cases accepted : ∀ b ∈ bytes, isCrockford b = true
    · have decoded := exactDecode_ULID.accepted bytes sized accepted _ rfl (not_reservedBitSet _)
      constructor
      · intro refused
        rw [decodeText, decoded] at refused
        cases refused
      · rintro (⟨unsized, _⟩ | ⟨_, byte, index, offending, _⟩)
        · exact absurd sized unsized
        · have inside := accepted byte (List.mem_of_getElem? offending.found)
          rw [offending.outside] at inside
          cases inside
    · obtain ⟨b, member, outside⟩ : ∃ b ∈ bytes, isCrockford b = false := by
        simpa using accepted
      obtain ⟨byte, index, offending⟩ := exists_firstInvalid member outside
      have decoded := exactDecode_ULID.invalidByte bytes byte index sized offending
      constructor
      · intro refused
        rw [decodeText, decoded] at refused
        cases refused
        exact Or.inr ⟨sized, byte, index, offending, rfl⟩
      · rintro (⟨unsized, _⟩ | ⟨_, other, position, first, rfl⟩)
        · exact absurd sized unsized
        · rw [decodeText, exactDecode_ULID.invalidByte bytes other position sized first]
          rfl
  · have decoded := exactDecode_ULID.wrongLength bytes sized
    constructor
    · intro refused
      rw [decodeText, decoded] at refused
      cases refused
      exact Or.inl ⟨sized, rfl⟩
    · rintro (⟨_, rfl⟩ | ⟨isSized, _⟩)
      · rw [decodeText, decoded]
        rfl
      · exact absurd isSized sized

theorem ulidIsValid_eq (bytes : List UInt8) :
    ulidIsValid bytes = some (bytes.length == 26 && bytes.all isCrockford) := by
  by_cases sized : bytes.length = 26
  · by_cases accepted : ∀ b ∈ bytes, isCrockford b = true
    · have decoded := exactDecode_ULID.accepted bytes sized accepted _ rfl (not_reservedBitSet _)
      rw [ulidIsValid, decoded, sized, List.all_eq_true.mpr accepted]
      rfl
    · obtain ⟨b, member, outside⟩ : ∃ b ∈ bytes, isCrockford b = false := by
        simpa using accepted
      obtain ⟨byte, index, offending⟩ := exists_firstInvalid member outside
      have notAll : bytes.all isCrockford = false := by
        rw [Bool.eq_false_iff, Ne, List.all_eq_true]
        exact accepted
      rw [ulidIsValid, exactDecode_ULID.invalidByte bytes byte index sized offending, notAll,
        Bool.and_false]
      rfl
  · have unsized : (bytes.length == 26) = false := beq_eq_false_iff_ne.mpr sized
    rw [ulidIsValid, exactDecode_ULID.wrongLength bytes sized, unsized, Bool.false_and]
    rfl

end Reading

/-! ## Writing a text -/

/-- A ULID is written in 26 characters of the alphabet. -/
theorem ulidToText_eq (target : Target) (ulid : ULID) : ∃ text,
    ulidToText target ulid = some text ∧ text.length = 26 ∧ ∀ b ∈ text, b ∈ ENCODE_LUT := by
  unfold ulidToText Base32UlidExt.encode
  refine ⟨_, innerEncode_eq target ULID.isBacking_ULID ulid.toInner.toRaw, ?_, ?_⟩
  · rw [List.length_map, Radix.length_digits]
    rfl
  · intro b member
    obtain ⟨digit, isDigit, rfl⟩ := List.mem_map.mp member
    have small := Radix.digit_lt (by decide) isDigit
    have inAlphabet : ∀ digit < 32, encodeChar digit ∈ ENCODE_LUT := by
      decide +kernel
    exact inAlphabet digit small

/-- What was written reads back as the same ULID, through any text argument. -/
theorem decodeText_ulidToText {target : Target} {ulid : ULID} {text : List UInt8}
    (written : ulidToText target ulid = some text) (message : String)
    (debug : InnerULID → String) : decodeText message debug text = some (.ok ulid) := by
  have valid : ulid.toInner.isValid = true :=
    (UlidId.isValid_iff_reserved ulid.toInner.toRaw).mpr (not_reservedBitSet _)
  have inner := innerDecode_innerEncode target ULID.isBacking_ULID ulid.toInner.toRaw
    (E := InnerULID) written
  rw [decodeText_eq_ok_iff]
  show (innerDecode _ text).map _ = _
  rw [inner, Option.map_some]
  show some (if !ulid.toInner.isValid then Except.error _ else Except.ok ulid.toInner) = _
  rw [valid]
  rfl

/-- No character of the alphabet ends a C string. -/
theorem not_mem_zero {text : List UInt8} (written : ∀ b ∈ text, b ∈ ENCODE_LUT) : 0 ∉ text := by
  have noNul : (0 : UInt8) ∉ ENCODE_LUT := by
    decide +kernel
  exact fun member => noNul (written 0 member)

/-- What is put out is the text. -/
theorem ulidOut_eq {info : StringInfo} (documented : info.Documented) {target : Target}
    {ulid : ULID} {text : List UInt8} (written : ulidToText target ulid = some text)
    (sized : text.length = 26) (inAlphabet : ∀ b ∈ text, b ∈ ENCODE_LUT) :
    ∃ out : CStr, ulidOut target info ulid = some out ∧ out.toBytes = text := by
  have positive : (0 : Int32) ≤ Int32.ofNat text.length := by
    rw [sized]
    decide
  refine ⟨_, ?_, documented.leaks _ text positive (not_mem_zero inAlphabet)⟩
  rw [ulidOut, show Base32UlidExt.encode target ulid.toInner = some text from written,
    Option.map_some]

/-! ## Messages -/

/-- A message is taken when what is left of it is one ULID and nothing else. -/
theorem ulidRecv_eq_ok_iff {pq : PqFormat} (documented : pq.Documented) {msg : StringInfoData}
    {ulid : ULID} :
    ulidRecv pq (some msg) = .ok ulid ↔ msg.data.drop msg.cursor = ulidSend ulid := by
  have sized : (ulidSend ulid).length = SIZE := ulid.sized
  have left : (msg.data.drop msg.cursor).length = msg.data.length - msg.cursor :=
    List.length_drop
  have size : 0 < SIZE := by decide
  unfold ulidRecv
  rw [unwrapOrError_some_bind]
  by_cases enough : msg.cursor + SIZE ≤ msg.data.length
  · obtain ⟨bytes, reads, isBytes⟩ := documented.reads msg SIZE enough
    have atEnd := documented.atEnd { msg with cursor := msg.cursor + SIZE }
    rw [reads]
    show (pq.pqGetmsgend _ >>= fun _ => Except.ok (ULID.mk bytes.val bytes.property)) = _ ↔ _
    cases ended : pq.pqGetmsgend { msg with cursor := msg.cursor + SIZE } with
    | error error =>
        rw [ended] at atEnd
        constructor
        · intro received
          cases received
        · intro rest
          have unread : msg.cursor + SIZE ≠ msg.data.length := by
            intro readAll
            cases atEnd.mpr readAll
          rw [rest] at left
          omega
    | ok nothing =>
        have readAll : msg.cursor + SIZE = msg.data.length := atEnd.mp ended
        have whole : bytes.val = msg.data.drop msg.cursor := by
          rw [isBytes, List.take_of_length_le (by omega)]
        constructor
        · intro received
          have isUlid : ULID.mk bytes.val bytes.property = ulid := Except.ok.inj received
          rw [← whole, ← isUlid]
          rfl
        · intro rest
          apply congrArg Except.ok
          apply ULID.ext
          exact whole.trans rest
  · obtain ⟨error, reads⟩ := documented.insufficient msg SIZE (by omega)
    rw [reads]
    constructor
    · intro received
      cases received
    · intro rest
      rw [rest] at left
      omega

theorem byteaToUlid_eq_ok_iff {bytes : List UInt8} {ulid : ULID} :
    byteaToUlid bytes = .ok ulid ↔ bytes = ulidToBytea ulid := by
  unfold byteaToUlid ulidToBytea
  constructor
  · intro taken
    split at taken
    · rw [← Except.ok.inj taken]
    · cases taken
  · intro same
    subst same
    rw [dif_pos ulid.sized]

/-! ## The formats -/

/-- The text and binary formats of the type: what is sent out comes back as it was, what
is taken in is exactly what spells or is a ULID, and what is refused is refused for its
length or for its first bad byte. -/
structure ExactTransport (target : Target) (debug : InnerULID → String) (info : StringInfo)
    (pq : PqFormat) : Prop where
  output : ∀ ulid, ∃ text : CStr, ulidOut target info ulid = some text ∧
    ulidToText target ulid = some text.toBytes ∧ text.toBytes.length = 26 ∧
    (∀ b ∈ text.toBytes, b ∈ ENCODE_LUT) ∧ ulidIn debug text = some (.ok ulid) ∧
    textToUlid debug text.toBytes = some (.ok ulid)
  input : ∀ (text : CStr) ulid, ulidIn debug text = some (.ok ulid) ↔
    text.toBytes.length = 26 ∧ (∀ b ∈ text.toBytes, isCrockford b = true) ∧
      ulidToText target ulid = some (canonical 128 text.toBytes)
  inputRefused : ∀ (text : CStr) error, ulidIn debug text = some (.error error) ↔
    (text.toBytes.length ≠ 26 ∧
        error = "invalid ULID: " ++ ("invalid length: " ++ toString text.toBytes.length)) ∨
      text.toBytes.length = 26 ∧ ∃ byte index, FirstInvalid text.toBytes byte index ∧
        error = "invalid ULID: " ++ ("invalid ascii byte (" ++ toString byte ++ ") at index (" ++
          toString index ++ ")")
  validated : ∀ (text : CStr), ulidIsValid text.toBytes = some true ↔
    ∃ ulid, ulidIn debug text = some (.ok ulid) ∧ textToUlid debug text.toBytes = some (.ok ulid)
  received : ∀ msg ulid, ulidRecv pq (some msg) = .ok ulid ↔
    msg.data.drop msg.cursor = ulidSend ulid
  bytea : ∀ bytes ulid, byteaToUlid bytes = .ok ulid ↔ bytes = ulidToBytea ulid

/-- The formats of the type are exact, on every target and for every message buffer. -/
theorem transport_exact (target : Target) (debug : InnerULID → String) (info : StringInfo)
    (buffered : info.Documented) (pq : PqFormat) (documented : pq.Documented) :
    ExactTransport target debug info pq where
  output := by
    intro ulid
    obtain ⟨text, written, sized, inAlphabet⟩ := ulidToText_eq target ulid
    obtain ⟨out, isOut, kept⟩ := ulidOut_eq buffered written sized inAlphabet
    refine ⟨out, isOut, ?_⟩
    rw [ulidIn, kept]
    exact ⟨written, sized, inAlphabet, decodeText_ulidToText written _ debug,
      decodeText_ulidToText written _ debug⟩
  input := fun text ulid => decodeText_accepts target
  inputRefused := fun text error => decodeText_refuses
  validated := by
    intro text
    rw [ulidIsValid_eq, Option.some.injEq, Bool.and_eq_true, beq_iff_eq, List.all_eq_true]
    constructor
    · rintro ⟨sized, accepted⟩
      obtain ⟨ulid, taken⟩ := exists_decodeText sized accepted debug
      exact ⟨ulid, taken _, taken _⟩
    · rintro ⟨ulid, taken, _⟩
      obtain ⟨sized, accepted, _⟩ := (decodeText_accepts target).mp taken
      exact ⟨sized, accepted⟩
  received := fun msg ulid => ulidRecv_eq_ok_iff documented
  bytea := fun bytes ulid => byteaToUlid_eq_ok_iff

/-- A buffer that grows, and the C string at its head. -/
def StringInfo.growing : StringInfo where
  Buffer := List UInt8
  withCapacity := fun _ => []
  pushBytes := fun buffer bytes => buffer ++ bytes
  leakCstr := fun buffer =>
    ⟨buffer.takeWhile (· != 0), fun member => by simpa using List.mem_takeWhile_imp member⟩

theorem StringInfo.documented_growing : StringInfo.growing.Documented where
  leaks := by
    intro len bytes _ noNul
    apply List.takeWhile_eq_self_iff.mpr
    intro b member
    have different : b ≠ 0 := fun same => noNul (same ▸ member)
    exact bne_iff_ne.mpr different

/-- PostgreSQL's own cursor functions. -/
def PqFormat.postgres : PqFormat where
  pqGetmsgbytes := fun msg datalen =>
    if enough : msg.cursor + datalen ≤ msg.data.length then
      .ok (⟨(msg.data.drop msg.cursor).take datalen, by simp; omega⟩,
        { msg with cursor := msg.cursor + datalen })
    else
      .error "insufficient data left in message"
  pqGetmsgend := fun msg =>
    if msg.cursor = msg.data.length then .ok () else .error "invalid message format"

theorem PqFormat.documented_postgres : PqFormat.postgres.Documented where
  reads := by
    intro msg datalen enough
    refine ⟨_, dif_pos enough, rfl⟩
  insufficient := by
    intro msg datalen short
    exact ⟨_, dif_neg (Nat.not_le.mpr short)⟩
  atEnd := by
    intro msg
    unfold PqFormat.postgres
    simp

/-- A lower-case text with surplus bits is taken and put out in its one spelling, a message
with a byte too many is not taken. -/
theorem transport_exact_surplus :
    let surplus : CStr := ⟨List.replicate 26 'z'.toUInt8, by decide⟩
    let spelled : List UInt8 := '7'.toUInt8 :: List.replicate 25 'Z'.toUInt8
    let long : StringInfoData := ⟨List.replicate 18 7, 1⟩
    (∃ ulid text, ulidIn (fun _ => "") surplus = some (.ok ulid) ∧
      ulidOut ⟨64, by decide⟩ StringInfo.growing ulid = some text ∧ text.toBytes = spelled) ∧
      ∀ ulid, ulidRecv PqFormat.postgres (some long) ≠ .ok ulid := by
  intro surplus spelled long
  have exact := transport_exact ⟨64, by decide⟩ (fun _ => "") StringInfo.growing
    StringInfo.documented_growing PqFormat.postgres PqFormat.documented_postgres
  have canonicalForm : canonical 128 surplus.toBytes = spelled := by
    decide +kernel
  constructor
  · have valid : ulidIsValid surplus.toBytes = some true := by
      rw [ulidIsValid_eq]
      decide +kernel
    obtain ⟨ulid, taken, _⟩ := (exact.validated surplus).mp valid
    obtain ⟨text, isOut, written, _⟩ := exact.output ulid
    have sameText := ((exact.input surplus ulid).mp taken).2.2
    rw [written, Option.some.injEq, canonicalForm] at sameText
    exact ⟨ulid, text, taken, isOut, sameText⟩
  · intro ulid received
    have rest := (exact.received long ulid).mp received
    have sized : (long.data.drop long.cursor).length = 16 := by
      rw [rest]
      exact ulid.sized
    revert sized
    decide

end Ferroid.Pg
