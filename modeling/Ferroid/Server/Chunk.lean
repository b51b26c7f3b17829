import Ferroid.Library.Radix
import Ferroid.Server.Config

/-!
Contract: packed ID chunks and how a request is cut into them.

Owns the little-endian packing of IDs into chunk bytes and its inverse, and the
sizes `feed_chunks` asks for: their sum, their number and their bounds.

Does not own who sends a chunk to whom.
-/

namespace Ferroid.Server

open Ferroid.Id
open Ferroid.Library

/-! ## Packing -/

/-- `IdChunk::packed_ids`. -/
abbrev IdChunk := List UInt8

/-- `id.to_raw().to_le_bytes()`. -/
def toLeBytes (id : ServerId) : List UInt8 :=
  (Radix.beBytes SNOWFLAKE_ID_SIZE id.toRaw.toNat).reverse

/-- The ID whose little-endian bytes these are. -/
def fromLeBytes (bytes : List UInt8) : ServerId :=
  SnowflakeId.fromRaw
    (BitVec.ofNat ServerLayout.width (Radix.value 256 (bytes.reverse.map UInt8.toNat)))

/-- The IDs of a chunk: its 8-byte groups. -/
def unpack : IdChunk → List ServerId
  | b0 :: b1 :: b2 :: b3 :: b4 :: b5 :: b6 :: b7 :: rest =>
      fromLeBytes [b0, b1, b2, b3, b4, b5, b6, b7] :: unpack rest
  | _ => []

def pack (ids : List ServerId) : IdChunk := ids.flatMap toLeBytes

theorem length_toLeBytes (id : ServerId) : (toLeBytes id).length = SNOWFLAKE_ID_SIZE := by
  simp [toLeBytes]

theorem fromLeBytes_toLeBytes (id : ServerId) : fromLeBytes (toLeBytes id) = id := by
  have fits : id.toRaw.toNat < 256 ^ SNOWFLAKE_ID_SIZE := id.toRaw.isLt
  rw [fromLeBytes, toLeBytes, List.reverse_reverse, Radix.value_beBytes, Nat.mod_eq_of_lt fits,
    BitVec.ofNat_toNat, BitVec.setWidth_eq]
  rfl

/-- The groups of a packed chunk are the IDs packed into it. -/
theorem unpack_pack (ids : List ServerId) : unpack (pack ids) = ids := by
  induction ids with
  | nil => rfl
  | cons id rest inductionHypothesis =>
      have length := length_toLeBytes id
      obtain ⟨b0, b1, b2, b3, b4, b5, b6, b7, bytes⟩ :
          ∃ b0 b1 b2 b3 b4 b5 b6 b7, toLeBytes id = [b0, b1, b2, b3, b4, b5, b6, b7] := by
        match toLeBytes id, length with
        | [b0, b1, b2, b3, b4, b5, b6, b7], _ => exact ⟨b0, b1, b2, b3, b4, b5, b6, b7, rfl⟩
      have first := fromLeBytes_toLeBytes id
      rw [bytes] at first
      rw [pack, List.flatMap_cons, bytes]
      exact congr (congrArg List.cons first) inductionHypothesis

/-- Whole 8-byte groups are counted by the length alone. -/
theorem length_unpack (chunk : IdChunk) :
    (unpack chunk).length = chunk.length / SNOWFLAKE_ID_SIZE := by
  fun_induction unpack chunk with
  | case1 b0 b1 b2 b3 b4 b5 b6 b7 rest inductionHypothesis =>
      rw [List.length_cons, inductionHypothesis]
      exact (Nat.add_div_right rest.length (by decide)).symm
  | case2 chunk short =>
      have few : chunk.length < SNOWFLAKE_ID_SIZE := by
        match chunk, short with
        | [], _ | [_], _ | [_, _], _ | [_, _, _], _ | [_, _, _, _], _ | [_, _, _, _, _], _
        | [_, _, _, _, _, _], _ | [_, _, _, _, _, _, _], _ => simp [SNOWFLAKE_ID_SIZE]
        | b0 :: b1 :: b2 :: b3 :: b4 :: b5 :: b6 :: b7 :: rest, short =>
            exact (short b0 b1 b2 b3 b4 b5 b6 b7 rest rfl).elim
      rw [Nat.div_eq_of_lt few, List.length_nil]

theorem pack_append (left right : List ServerId) :
    pack (left ++ right) = pack left ++ pack right :=
  List.flatMap_append

/-! ## Cutting a request -/

/-- The sizes `feed_chunks` has asked for so far and the number of IDs still to
ask for, after any number of its iterations. -/
inductive Cuts (idsPerChunk count : Nat) : List Nat → Nat → Prop where
  | start : Cuts idsPerChunk count [] count
  | cut {sizes : List Nat} {remaining : Nat} (cuts : Cuts idsPerChunk count sizes remaining)
      (more : 0 < remaining) :
      Cuts idsPerChunk count (sizes ++ [min remaining idsPerChunk])
        (remaining - min remaining idsPerChunk)

/-- Chunks needed for a number of IDs. -/
def chunksFor (idsPerChunk ids : Nat) : Nat := (ids + idsPerChunk - 1) / idsPerChunk

theorem chunksFor_cut {idsPerChunk remaining : Nat} (positive : 0 < idsPerChunk)
    (more : 0 < remaining) :
    chunksFor idsPerChunk remaining =
      chunksFor idsPerChunk (remaining - min remaining idsPerChunk) + 1 := by
  unfold chunksFor
  by_cases last : remaining ≤ idsPerChunk
  · rw [Nat.min_eq_left last, Nat.sub_self, Nat.zero_add,
      Nat.div_eq_of_lt (Nat.sub_lt positive Nat.one_pos), Nat.zero_add]
    exact Nat.div_eq_of_lt_le (by omega) (by omega)
  · have rearranged : remaining + idsPerChunk - 1 =
        remaining - idsPerChunk + idsPerChunk - 1 + idsPerChunk := by omega
    rw [Nat.min_eq_right (by omega), rearranged, Nat.add_div_right _ positive]

/-- The sizes and what remains add up. -/
theorem Cuts.sum {idsPerChunk count : Nat} {sizes : List Nat} {remaining : Nat}
    (cuts : Cuts idsPerChunk count sizes remaining) : sizes.sum + remaining = count := by
  induction cuts with
  | start => simp
  | cut cuts more inductionHypothesis =>
      rw [List.sum_append, List.sum_singleton]
      omega

/-- With a positive chunk size, the sizes add up, each lies between one and the
chunk size, and their number is exact. -/
theorem Cuts.exact {idsPerChunk count : Nat} (positive : 0 < idsPerChunk) {sizes : List Nat}
    {remaining : Nat} (cuts : Cuts idsPerChunk count sizes remaining) :
    sizes.sum + remaining = count ∧ (∀ size ∈ sizes, 0 < size ∧ size ≤ idsPerChunk) ∧
      sizes.length + chunksFor idsPerChunk remaining = chunksFor idsPerChunk count := by
  refine ⟨cuts.sum, ?_⟩
  induction cuts with
  | start => simp
  | cut cuts more inductionHypothesis =>
      obtain ⟨bounds, number⟩ := inductionHypothesis
      rw [chunksFor_cut positive more] at number
      constructor
      · intro size member
        rcases List.mem_append.mp member with earlier | last
        · exact bounds size earlier
        · rw [List.mem_singleton.mp last]
          omega
      · rw [List.length_append, List.length_singleton]
        omega

/-- The accounts of a stream: what has been asked for so far. With empty chunks the
loop asks forever and the request never shrinks. -/
def Accounts (idsPerChunk count : Nat) (sizes : List Nat) (remaining : Nat) : Prop :=
  if idsPerChunk = 0 then 0 < remaining else Cuts idsPerChunk count sizes remaining

theorem Accounts.start {idsPerChunk count : Nat} (positive : 0 < count) :
    Accounts idsPerChunk count [] count := by
  unfold Accounts
  split
  · exact positive
  · exact .start

theorem Accounts.cut {idsPerChunk count : Nat} {sizes : List Nat} {remaining : Nat}
    (accounts : Accounts idsPerChunk count sizes remaining) (more : 0 < remaining) :
    Accounts idsPerChunk count (sizes ++ [min remaining idsPerChunk])
      (remaining - min remaining idsPerChunk) := by
  unfold Accounts at *
  split
  · next empty =>
      rw [empty, Nat.min_zero, Nat.sub_zero]
      exact more
  · next positive =>
      rw [if_neg positive] at accounts
      exact .cut accounts more

/-- A request of no IDs is only made when chunks are empty, and then nothing is
owed for it. -/
theorem Accounts.skip {idsPerChunk count : Nat} {sizes : List Nat} {remaining : Nat}
    (accounts : Accounts idsPerChunk count (sizes ++ [0]) remaining) :
    Accounts idsPerChunk count sizes remaining := by
  unfold Accounts at *
  split
  · next empty =>
      rw [if_pos empty] at accounts
      exact accounts
  · next positive =>
      rw [if_neg positive] at accounts
      have bounds := (accounts.exact (Nat.pos_of_ne_zero positive)).2.1 0 (by simp)
      omega

/-- A finished stream of non-empty chunks is complete. -/
theorem Accounts.finished {idsPerChunk count : Nat} {sizes : List Nat}
    (accounts : Accounts idsPerChunk count sizes 0) :
    0 < idsPerChunk ∧ sizes.sum = count ∧ (∀ size ∈ sizes, 0 < size ∧ size ≤ idsPerChunk) ∧
      sizes.length = chunksFor idsPerChunk count := by
  unfold Accounts at accounts
  split at accounts
  · exact absurd accounts (Nat.lt_irrefl 0)
  · next positive =>
      have positive := Nat.pos_of_ne_zero positive
      obtain ⟨sum, bounds, number⟩ := accounts.exact positive
      have none : chunksFor idsPerChunk 0 = 0 := by
        rw [chunksFor, Nat.zero_add]
        exact Nat.div_eq_of_lt (by omega)
      exact ⟨positive, by omega, bounds, by omega⟩

end Ferroid.Server
