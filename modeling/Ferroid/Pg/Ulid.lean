import Ferroid.Base32.Order

/-!
Contract: the ULID type that the PostgreSQL extension stores.

Owns the stored big-endian bytes, the conversions from and to the crate's ULID,
and that the derived byte order is the order of the integers and of the texts.

Does not own the casts from and to PostgreSQL timestamps (`Pg.Cast`).
-/

namespace Ferroid.Pg

open Ferroid.Base32
open Ferroid.Id (SnowflakeLayout SnowflakeId UlidLayout UlidId)

abbrev InnerULID := UlidId Id.ULID

/-- `pg_ferroid::SIZE`. -/
def SIZE : Nat := Base32.SIZE Id.ULID.width

/-- The stored type: sixteen bytes. -/
@[ext]
structure ULID where
  bytes : List UInt8
  sized : bytes.length = SIZE

namespace ULID

/-- The derived order of byte arrays is lexicographic. -/
instance : LT ULID := ⟨fun left right => left.bytes < right.bytes⟩

instance : LE ULID := ⟨fun left right => left.bytes ≤ right.bytes⟩

def toInner (self : ULID) : InnerULID :=
  UlidId.fromRaw (fromBeBytes Id.ULID.width self.bytes)

def fromInner (ulid : InnerULID) : ULID :=
  ⟨toBeBytes ulid.toRaw, length_toBeBytes _⟩

/-! ## Stored bytes and integers -/

theorem isBacking_ULID : IsBacking Id.ULID.width := Or.inr (Or.inr rfl)

-- By `rw`: `rfl` would unfold all sixteen digits.
theorem bytes_fromInner (ulid : InnerULID) : (fromInner ulid).bytes = toBeBytes ulid.toRaw := by
  rw [fromInner]

theorem toRaw_toInner (self : ULID) :
    self.toInner.toRaw = fromBeBytes Id.ULID.width self.bytes :=
  rfl

theorem toInner_fromInner (ulid : InnerULID) : (fromInner ulid).toInner = ulid := by
  rw [toInner, bytes_fromInner, fromBeBytes_toBeBytes isBacking_ULID]
  rfl

theorem fromInner_toInner (self : ULID) : fromInner self.toInner = self := by
  apply ULID.ext
  rw [bytes_fromInner, toRaw_toInner, toBeBytes_fromBeBytes isBacking_ULID self.sized]

/-- Stored bytes compare as the integers they spell. -/
theorem lt_iff (left right : ULID) : left < right ↔ left.toInner.toRaw < right.toInner.toRaw := by
  have leftBytes := bytes_fromInner left.toInner
  have rightBytes := bytes_fromInner right.toInner
  rw [fromInner_toInner] at leftBytes rightBytes
  rw [← toBeBytes_lt_iff isBacking_ULID, ← leftBytes, ← rightBytes]
  exact Iff.rfl

theorem le_iff (left right : ULID) :
    left ≤ right ↔ left.toInner.id.toNat ≤ right.toInner.id.toNat := by
  have notLess : left ≤ right ↔ ¬ right < left := List.not_lt.symm
  rw [notLess, lt_iff]
  exact Nat.not_lt

end ULID

/-- Integers, big-endian bytes and texts of every Snowflake and ULID layout sort
alike, and the stored type of the extension sorts as its integers do. -/
theorem representations_sort_alike (target : Target) (width : Nat) (backing : IsBacking width) :
    (∀ layout : SnowflakeLayout, layout.width = width → ∀ a b : SnowflakeId layout,
        SortsAlike SnowflakeId.toRaw (Base32SnowExt.encode target) a b) ∧
      (∀ layout : UlidLayout, layout.width = width → ∀ a b : UlidId layout,
        SortsAlike UlidId.toRaw (Base32UlidExt.encode target) a b) ∧
      ∀ a b : ULID, a.toInner.toRaw < b.toInner.toRaw ↔ a < b := by
  refine ⟨?_, ?_, ?_⟩
  · intro layout sized a b
    rw [← sized] at backing
    exact sortsAlike_of_backing target backing SnowflakeId.toRaw a b
  · intro layout sized a b
    rw [← sized] at backing
    exact sortsAlike_of_backing target backing UlidId.toRaw a b
  · intro a b
    exact (ULID.lt_iff a b).symm

/-- The texts of two adjacent Twitter IDs with a carry between them. -/
theorem representations_sort_alike_twitter :
    let a : SnowflakeId Id.SnowflakeTwitterId := SnowflakeId.fromRaw 1023#64
    let b : SnowflakeId Id.SnowflakeTwitterId := SnowflakeId.fromRaw 1024#64
    ∃ textA textB, Base32SnowExt.encode ⟨64, by decide⟩ a = some textA ∧
      Base32SnowExt.encode ⟨64, by decide⟩ b = some textB ∧ textA < textB := by
  intro a b
  have less : a.toRaw < b.toRaw := by decide
  obtain ⟨textA, textB, encodedA, encodedB, sorted⟩ :=
    ((representations_sort_alike ⟨64, by decide⟩ 64 (by decide)).1
      Id.SnowflakeTwitterId rfl a b).text
  exact ⟨textA, textB, encodedA, encodedB, sorted.mp less⟩

end Ferroid.Pg
