import Ferroid.Id.Snowflake

/-!
Contract: command-line arguments and the validated server configuration.

Owns `CliArgs`, `ServerConfig::try_from` with its error texts, the machine ID
each worker's generator is created with, and the limits that the standard
library and the channels put on allocation sizes and capacities.

Does not own what the server does with a configuration.
-/

namespace Ferroid.Server

open Ferroid.Id

/-! ## Machine integers -/

/-- Values of `usize`; the server is a 64-bit program. -/
def usizeRange : Nat := 2 ^ 64

/-- `isize::MAX`, the largest size of an allocation in bytes. -/
def isizeMax : Nat := 2 ^ 63 - 1

/-- `Semaphore::MAX_PERMITS`, the largest capacity of a channel. -/
def maxPermits : Nat := (usizeRange - 1) / 8

/-- `SNOWFLAKE_ID_SIZE`. -/
def SNOWFLAKE_ID_SIZE : Nat := 8

/-- The server's `SnowflakeId`. -/
abbrev ServerLayout : SnowflakeLayout := SnowflakeTwitterId

abbrev ServerId := SnowflakeId ServerLayout

/-! ## Arguments and configuration -/

/-- The parsed arguments. The listening address is used by nothing below. -/
structure CliArgs where
  maxAllowedIds : Nat
  shardOffset : Nat
  numWorkers : Nat
  idsPerChunk : Nat
  streamBufferSize : Nat
  shutdownTimeout : Nat
  maxAllowedIds_lt : maxAllowedIds < usizeRange
  shardOffset_lt : shardOffset < usizeRange
  numWorkers_lt : numWorkers < usizeRange
  idsPerChunk_lt : idsPerChunk < usizeRange
  streamBufferSize_lt : streamBufferSize < usizeRange
  shutdownTimeout_lt : shutdownTimeout < usizeRange

/-- The arguments of a command line that gives none. -/
def CliArgs.default : CliArgs where
  maxAllowedIds := 1000000000
  shardOffset := 0
  numWorkers := 1
  idsPerChunk := 4096
  streamBufferSize := 8
  shutdownTimeout := 3
  maxAllowedIds_lt := by decide
  shardOffset_lt := by decide
  numWorkers_lt := by decide
  idsPerChunk_lt := by decide
  streamBufferSize_lt := by decide
  shutdownTimeout_lt := by decide

structure ServerConfig where
  maxAllowedIds : Nat
  shardOffset : Nat
  numWorkers : Nat
  idsPerChunk : Nat
  streamBufferSize : Nat
  chunkBytes : Nat
  shutdownTimeout : Nat
deriving DecidableEq, Repr

/-- Why an argument list is refused. -/
inductive ConfigError where
  | noWorkers
  | tooManyWorkers (numWorkers maxMachineId : Nat)
  | chunkBytesOverflow
deriving DecidableEq, Repr

def ConfigError.message : ConfigError → String
  | .noWorkers => "NUM_WORKERS must be greater than 0"
  | .tooManyWorkers numWorkers maxMachineId =>
      s!"NUM_WORKERS ({numWorkers}) exceeds available Snowflake machine ID space " ++
        s!"(max = {maxMachineId})"
  | .chunkBytesOverflow => "Overflow in chunk_bytes computation"

/-- `usize::checked_mul`. -/
def checkedMul (left right : Nat) : Option Nat :=
  if left * right < usizeRange then some (left * right) else none

/-- `ServerConfig::try_from`. -/
def ServerConfig.tryFrom (args : CliArgs) : Except ConfigError ServerConfig :=
  let maxMachineId := (ServerLayout.maxMachineId).toNat + 1
  if args.numWorkers = 0 then
    .error .noWorkers
  else if args.numWorkers > maxMachineId then
    .error (.tooManyWorkers args.numWorkers maxMachineId)
  else
    match checkedMul args.idsPerChunk SNOWFLAKE_ID_SIZE with
    | none => .error .chunkBytesOverflow
    | some chunkBytes =>
        .ok
          { maxAllowedIds := args.maxAllowedIds
            shardOffset := args.shardOffset
            numWorkers := args.numWorkers
            idsPerChunk := args.idsPerChunk
            streamBufferSize := args.streamBufferSize
            chunkBytes := chunkBytes
            shutdownTimeout := args.shutdownTimeout }

/-- A configuration that `try_from` returns for some arguments. -/
def ServerConfig.Accepted (config : ServerConfig) : Prop :=
  ∃ args, ServerConfig.tryFrom args = .ok config

/-- What acceptance guarantees. -/
structure ServerConfig.Checked (config : ServerConfig) : Prop where
  numWorkers_pos : 0 < config.numWorkers
  numWorkers_le : config.numWorkers ≤ 1024
  chunkBytes_eq : config.chunkBytes = config.idsPerChunk * SNOWFLAKE_ID_SIZE
  chunkBytes_lt : config.chunkBytes < usizeRange
  maxAllowedIds_lt : config.maxAllowedIds < usizeRange
  streamBufferSize_lt : config.streamBufferSize < usizeRange

theorem maxMachineId_eq : (ServerLayout.maxMachineId).toNat + 1 = 1024 := by
  decide +kernel

theorem ServerConfig.Accepted.checked {config : ServerConfig} (accepted : config.Accepted) :
    config.Checked := by
  obtain ⟨args, tried⟩ := accepted
  unfold ServerConfig.tryFrom at tried
  rw [maxMachineId_eq] at tried
  by_cases noWorkers : args.numWorkers = 0
  · simp [noWorkers] at tried
  · by_cases tooMany : args.numWorkers > 1024
    · simp [noWorkers, tooMany] at tried
    · simp only [noWorkers, if_false, tooMany, checkedMul] at tried
      by_cases fits : args.idsPerChunk * SNOWFLAKE_ID_SIZE < usizeRange
      · simp only [fits, if_true, Except.ok.injEq] at tried
        subst tried
        exact ⟨Nat.pos_of_ne_zero noWorkers, Nat.le_of_not_lt tooMany, rfl, fits,
          args.maxAllowedIds_lt, args.streamBufferSize_lt⟩
      · simp [fits] at tried

/-- The defaults pass the checks, and a chunk of them is as large as the sequence of a tick. -/
theorem ServerConfig.accepted_default :
    ∃ config, ServerConfig.tryFrom CliArgs.default = .ok config ∧ config.Checked ∧
      config.idsPerChunk = ServerLayout.maxSequence.toNat + 1 ∧
      0 < config.maxAllowedIds ∧ 0 < config.streamBufferSize := by
  have tried : ServerConfig.tryFrom CliArgs.default =
      .ok ⟨1000000000, 0, 1, 4096, 8, 32768, 3⟩ := by
    decide +kernel
  refine ⟨_, tried, ServerConfig.Accepted.checked ⟨_, tried⟩, ?_, by decide, by decide⟩
  decide +kernel

/-- One worker at a shard offset, with chunks of one ID. -/
def nodeAt (shardOffset : Nat) : ServerConfig := ⟨1000, shardOffset, 1, 1, 8, 8, 3⟩

theorem nodeAt_zero_accepted : (nodeAt 0).Accepted :=
  ⟨⟨1000, 0, 1, 1, 8, 3, by decide, by decide, by decide, by decide, by decide, by decide⟩,
    by decide +kernel⟩

/-- Two workers, with chunks of one ID. -/
def nodeOfTwo : ServerConfig := ⟨1000, 0, 2, 1, 8, 8, 3⟩

theorem nodeOfTwo_accepted : nodeOfTwo.Accepted :=
  ⟨⟨1000, 0, 2, 1, 8, 3, by decide, by decide, by decide, by decide, by decide, by decide⟩,
    by decide +kernel⟩

/-! ## Machine IDs -/

/-- The argument of `Generator::new` for a worker: a wrapping `usize` sum, cast to
the backing integer. -/
def ServerConfig.machineId (config : ServerConfig) (worker : Nat) : ServerLayout.Ty :=
  BitVec.ofNat ServerLayout.width ((config.shardOffset + worker) % usizeRange)

/-- The machine field that `from_components` keeps of it. -/
def ServerConfig.machineField (config : ServerConfig) (worker : Nat) : Nat :=
  (config.shardOffset + worker) % 1024

theorem ServerConfig.toNat_machineId_mod (config : ServerConfig) (worker : Nat) :
    (config.machineId worker).toNat % 2 ^ ServerLayout.machineIdBits =
      config.machineField worker := by
  have width : ServerLayout.width = 64 := rfl
  have bits : ServerLayout.machineIdBits = 10 := rfl
  rw [machineId, machineField, BitVec.toNat_ofNat, width, bits, usizeRange, Nat.mod_mod,
    Nat.mod_mod_of_dvd _ (by decide)]
  rfl

/-- Workers of one server have different machine fields. -/
theorem ServerConfig.Checked.machineField_injective {config : ServerConfig}
    (checked : config.Checked) {left right : Nat} (leftLt : left < config.numWorkers)
    (rightLt : right < config.numWorkers)
    (same : config.machineField left = config.machineField right) : left = right := by
  have few := checked.numWorkers_le
  unfold ServerConfig.machineField at same
  omega

end Ferroid.Server
