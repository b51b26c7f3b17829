import Ferroid.Base32.Crockford

/-!
Contract: what the encoder writes, and where.

Owns the encoder with a log of its writes and of its pending-bit counter, that
forgetting the log gives back `encode_base32`, and what the log says of every
run with a buffer of the right size.

Does not own the encoder itself.
-/

namespace Ferroid.Base32

open Ferroid.Library

/-! ## The encoder with a log -/

/-- The encoder, the indices it has written in order, and every value that the
pending-bit counter has taken. -/
structure Logged (target : Target) where
  encoder : Encoder target
  writes : List Nat
  pending : List Nat

variable {target : Target}

/-- The inner loop; each round assigns the counter and then writes one index. -/
def Logged.drain (self : Logged target) : Option (Logged target) :=
  if BITS_PER_CHAR ≤ self.encoder.bits then
    let bits := self.encoder.bits - BITS_PER_CHAR
    let index := (self.encoder.acc >>> bits) &&& 0x1F#(target).usizeBits
    if self.encoder.out < self.encoder.buf.length then
      Logged.drain
        { encoder :=
            { acc := self.encoder.acc
              bits := bits
              out := self.encoder.out + 1
              buf := self.encoder.buf.set self.encoder.out (encodeChar index.toNat) }
          writes := self.writes ++ [self.encoder.out]
          pending := self.pending ++ [bits] }
    else
      none
  else
    some self
termination_by self.encoder.bits
decreasing_by simp only [BITS_PER_CHAR] at *; omega

/-- The outer loop body. -/
def Logged.push (self : Logged target) (b : UInt8) : Option (Logged target) :=
  Logged.drain
    { encoder :=
        { self.encoder with
          acc := (self.encoder.acc <<< 8) ||| BitVec.ofNat target.usizeBits b.toNat
          bits := self.encoder.bits + 8 }
      writes := self.writes
      pending := self.pending ++ [self.encoder.bits + 8] }

/-- Nothing is written yet, and the counter starts at the padding. -/
def Logged.start (target : Target) (input bufSlice : List UInt8) : Logged target where
  encoder := Encoder.start target input bufSlice
  writes := []
  pending := [(Encoder.start target input bufSlice).bits]

/-- `encode_base32` with its log. -/
def encodeLogged (target : Target) (input bufSlice : List UInt8) : Option (Logged target) :=
  input.foldlM Logged.push (Logged.start target input bufSlice)

/-! ## Forgetting the log -/

theorem Logged.map_encoder_drain (self : Logged target) :
    self.drain.map Logged.encoder = self.encoder.drain := by
  induction self using Logged.drain.induct with
  | case1 self enough bits index inBounds inductionHypothesis =>
      rw [Logged.drain, Encoder.drain]
      simp only [enough, inBounds, if_true]
      exact inductionHypothesis
  | case2 self enough full =>
      rw [Logged.drain, Encoder.drain]
      simp only [enough, full, if_true, if_false, Option.map_none]
  | case3 self few =>
      rw [Logged.drain, Encoder.drain]
      simp only [few, if_false, Option.map_some]

theorem Logged.map_encoder_push (self : Logged target) (b : UInt8) :
    (self.push b).map Logged.encoder = self.encoder.push b := by
  rw [Logged.push, Logged.map_encoder_drain]
  rfl

theorem Logged.map_encoder_foldlM_push (self : Logged target) (input : List UInt8) :
    (input.foldlM Logged.push self).map Logged.encoder =
      input.foldlM Encoder.push self.encoder := by
  induction input generalizing self with
  | nil => rfl
  | cons b rest inductionHypothesis =>
      rw [List.foldlM_cons, List.foldlM_cons, ← Logged.map_encoder_push]
      cases self.push b with
      | none => rfl
      | some next => exact inductionHypothesis next

/-- Forgetting the log gives back the run of the encoder. -/
theorem map_encoder_encodeLogged (target : Target) (input bufSlice : List UInt8) :
    (encodeLogged target input bufSlice).map Logged.encoder =
      input.foldlM Encoder.push (Encoder.start target input bufSlice) :=
  Logged.map_encoder_foldlM_push (Logged.start target input bufSlice) input

/-! ## What the log says -/

/-- The writes so far are the indices before `out`, each once and in order, and the
counter has stayed within twelve bits. -/
structure Logged.Accounted (logged : Logged target) : Prop where
  writes : logged.writes = List.range logged.encoder.out
  pending : ∀ bits ∈ logged.pending, bits ≤ 12

/-- The inner loop keeps the account and ends with less than a character pending. -/
theorem Logged.Accounted.drain {self next : Logged target} (accounted : self.Accounted)
    (pending : self.encoder.bits ≤ 12) (drained : self.drain = some next) :
    next.Accounted ∧ next.encoder.bits < 5 := by
  induction self using Logged.drain.induct with
  | case1 self enough bits index inBounds inductionHypothesis =>
      have bitsEq : bits = self.encoder.bits - 5 := rfl
      rw [Logged.drain] at drained
      simp only [enough, inBounds, if_true] at drained
      apply inductionHypothesis _ _ drained
      · constructor
        · show self.writes ++ [self.encoder.out] = List.range (self.encoder.out + 1)
          rw [accounted.writes, List.range_succ]
        · show ∀ other ∈ self.pending ++ [bits], other ≤ 12
          rw [List.forall_mem_append, List.forall_mem_singleton]
          exact ⟨accounted.pending, by omega⟩
      · show bits ≤ 12
        omega
  | case2 self enough full =>
      rw [Logged.drain] at drained
      simp only [enough, full, if_true, if_false] at drained
      cases drained
  | case3 self few =>
      rw [Logged.drain] at drained
      simp only [few, if_false] at drained
      cases drained
      simp only [BITS_PER_CHAR] at few
      exact ⟨accounted, by omega⟩

/-- One byte adds eight bits to fewer than five, and all but fewer than five are
written. -/
theorem Logged.Accounted.push {self next : Logged target} (accounted : self.Accounted)
    (few : self.encoder.bits < 5) {b : UInt8} (pushed : self.push b = some next) :
    next.Accounted ∧ next.encoder.bits < 5 := by
  unfold Logged.push at pushed
  apply Logged.Accounted.drain _ _ pushed
  · constructor
    · exact accounted.writes
    · show ∀ other ∈ self.pending ++ [self.encoder.bits + 8], other ≤ 12
      rw [List.forall_mem_append, List.forall_mem_singleton]
      exact ⟨accounted.pending, by omega⟩
  · show self.encoder.bits + 8 ≤ 12
    omega

theorem Logged.Accounted.foldlM_push {self final : Logged target} (accounted : self.Accounted)
    (few : self.encoder.bits < 5) {input : List UInt8}
    (folded : input.foldlM Logged.push self = some final) : final.Accounted := by
  induction input generalizing self with
  | nil =>
      cases folded
      exact accounted
  | cons b rest inductionHypothesis =>
      rw [List.foldlM_cons] at folded
      obtain ⟨next, pushed, restFolded⟩ := Option.bind_eq_some_iff.mp folded
      obtain ⟨nextAccounted, nextFew⟩ := accounted.push few pushed
      exact inductionHypothesis nextAccounted nextFew restFolded

/-! ## Every run with a buffer of the right size -/

/-- The characters are enough for the bits of the input, so no digit is cut off. -/
theorem value_digits_of_size (input : List UInt8) :
    Radix.value 32 (Radix.digits 32 (base32Size input.length)
        (Radix.value 256 (input.map UInt8.toNat))) =
      Radix.value 256 (input.map UInt8.toNat) := by
  have sizeEq : base32Size input.length = (input.length * 8 + 4) / 5 := rfl
  have small : Radix.value 256 (input.map UInt8.toNat) < 32 ^ base32Size input.length := by
    calc Radix.value 256 (input.map UInt8.toNat)
        < 256 ^ (input.map UInt8.toNat).length := Radix.value_lt (Radix.toNat_proper input)
      _ = 2 ^ (8 * input.length) := by rw [List.length_map, Nat.pow_mul]
      _ ≤ 2 ^ (5 * base32Size input.length) := Nat.pow_le_pow_right (by decide) (by omega)
      _ = 32 ^ base32Size input.length := by rw [Nat.pow_mul]
  rw [Radix.value_digits, Nat.mod_eq_of_lt small]

/-- With a buffer of exactly the encoded size the run writes every index once and in
order, keeps at most twelve bits pending and none at the end, and leaves in the
buffer the digits of the input, whatever the word size and the length. -/
theorem encodeBase32_writes_exact (target : Target) (input bufSlice : List UInt8)
    (exact : bufSlice.length = base32Size input.length) :
    ∃ final, encodeLogged target input bufSlice = some final ∧
      encodeBase32 target input bufSlice = some final.encoder.buf ∧
      final.writes = List.range bufSlice.length ∧
      (∀ bits ∈ final.pending, bits ≤ 12) ∧ final.encoder.bits = 0 ∧
      ∃ digits : List Nat, final.encoder.buf = digits.map encodeChar ∧
        digits.length = bufSlice.length ∧ (∀ digit ∈ digits, digit < 32) ∧
        Radix.value 32 digits = Radix.value 256 (input.map UInt8.toNat) := by
  obtain ⟨encoder, folded, finished, full, written⟩ := Encoder.foldlM_push_start target exact
  obtain ⟨_, few, _⟩ := Encoder.bits_start target exact
  have start : (Logged.start target input bufSlice).Accounted := by
    constructor
    · rfl
    · intro bits member
      rw [List.mem_singleton.mp member]
      omega
  obtain ⟨final, logged, rfl⟩ := Option.map_eq_some_iff.mp
    ((map_encoder_encodeLogged target input bufSlice).trans folded)
  have accounted : final.Accounted := start.foldlM_push few logged
  refine ⟨final, logged, ?_, ?_, accounted.pending, finished, ?_⟩
  · rw [encodeBase32_eq_run, folded, Option.map_some]
  · rw [accounted.writes, full]
  · refine ⟨_, written, ?_, ?_, value_digits_of_size input⟩
    · rw [Radix.length_digits, exact]
    · intro digit member
      exact Radix.digit_lt (by decide) member

/-- Three bytes on a word of sixteen bits, which no longer holds the first byte when
the last one is read. -/
theorem encodeBase32_writes_exact_three_bytes :
    let target : Target := ⟨16, by decide⟩
    ∃ final digits, encodeLogged target [0xFF, 0x01, 0x80] (List.replicate 5 0) = some final ∧
      final.writes = [0, 1, 2, 3, 4] ∧ final.encoder.bits = 0 ∧
      final.encoder.buf = digits.map encodeChar ∧ Radix.value 32 digits = 0xFF0180 := by
  intro target
  obtain ⟨final, logged, _, writes, _, finished, digits, spelled, _, _, value⟩ :=
    encodeBase32_writes_exact target [0xFF, 0x01, 0x80] (List.replicate 5 0) (by decide)
  exact ⟨final, digits, logged, writes, finished, spelled, value⟩

end Ferroid.Base32
