import Mathlib.Data.Rat.Defs
import SimSm.StreamingMultiprocessor

namespace SimSm

/-!
# The occupancy calculator
-/

/-- The resource the calculator names as limiting. -/
inductive LimitingFactor where
  | registers
  | sharedMemory
  | warps
  | threads
  | blocks
  deriving Repr, DecidableEq

/-- The text of a limiting factor. -/
def LimitingFactor.text : LimitingFactor → String
  | .registers => "Registers"
  | .sharedMemory => "Shared Memory"
  | .warps => "Warps"
  | .threads => "Threads"
  | .blocks => "Blocks"

/-- The calculator's answer; the percentage is an exact quotient. -/
structure OccupancyResult where
  residentBlocks : Nat
  residentWarps : Nat
  occupancyPercentage : Rat
  limitingFactor : LimitingFactor
  deriving DecidableEq

namespace OccupancyCalculator

variable (config : SystemConfig) (req : KernelResourceRequirements)

/-- Warps of one block, the last one possibly partial. -/
def warpsPerBlock : Nat :=
  (config.blockSize + config.warpSize - 1) / config.warpSize

/-- Registers of one block. -/
def registersPerBlock : Nat :=
  config.blockSize * req.registersPerThread

/-- Blocks that the thread limit allows. -/
def maxBlocksByThreads : Nat :=
  config.maxThreadsPerSm / config.blockSize

/-- Blocks that the warp limit allows. -/
def maxBlocksByWarps : Nat :=
  config.maxWarpsPerSm / warpsPerBlock config

/-- Blocks that the register limit allows. -/
def maxBlocksByRegs : Nat :=
  if 0 < registersPerBlock config req then
    config.maxRegistersPerSm / registersPerBlock config req
  else
    config.maxBlocksPerSm

/-- Blocks that the shared-memory limit allows. -/
def maxBlocksByShmem : Nat :=
  if 0 < req.sharedMemoryPerBlock then
    config.maxSharedMemoryPerSm / req.sharedMemoryPerBlock
  else
    config.maxBlocksPerSm

/-- The smallest of the five bounds. -/
def residentBlocks : Nat :=
  min config.maxBlocksPerSm
    (min (maxBlocksByThreads config)
      (min (maxBlocksByWarps config)
        (min (maxBlocksByRegs config req)
          (maxBlocksByShmem config req))))

/-- The first bound, in the order of the source's tests, that is attained. -/
def limitingFactor : LimitingFactor :=
  if residentBlocks config req = maxBlocksByRegs config req ∧
      0 < registersPerBlock config req then
    .registers
  else if residentBlocks config req = maxBlocksByShmem config req ∧
      0 < req.sharedMemoryPerBlock then
    .sharedMemory
  else if residentBlocks config req = maxBlocksByWarps config then
    .warps
  else if residentBlocks config req = maxBlocksByThreads config then
    .threads
  else
    .blocks

/-- Resident blocks and warps of a configuration, and what limits them. -/
def compute : Except SimError OccupancyResult :=
  if config.blockSize = 0 ∨ config.warpSize = 0 then
    .error .occupancyArguments
  else
    let residentWarps := residentBlocks config req * warpsPerBlock config
    .ok
      { residentBlocks := residentBlocks config req
        residentWarps := residentWarps
        occupancyPercentage :=
          if 0 < config.maxWarpsPerSm then
            (residentWarps : Rat) / config.maxWarpsPerSm
          else
            0
        limitingFactor := limitingFactor config req }

end OccupancyCalculator

end SimSm
