import SimSm.MemorySystem

namespace SimSm

/-!
# System configuration

The configuration record with the defaults of its declaration, and the resource
requirements of a kernel.
-/

/-- The configuration of a simulated system. -/
structure SystemConfig where
  numSms : Nat
  warpSize : Nat
  blockSize : Nat
  maxThreadsPerSm : Nat
  maxBlocksPerSm : Nat
  maxSharedMemoryPerSm : Nat
  maxRegistersPerSm : Nat
  maxWarpsPerSm : Nat := 64
  l1Sets : Nat := 4
  l1Associativity : Nat := 4
  l1LineSize : Nat := 32
  l1Policy : String := "LRU"
  l2Sets : Nat := 16
  l2Associativity : Nat := 8
  l2LineSize : Nat := 32
  l2Policy : String := "LRU"
  schedulerPolicy : String := "RR"
  activeSetSize : Nat := 8
  sharedMemoryLatency : Nat := 1
  l1Latency : Nat := 5
  l2Latency : Nat := 20
  globalMemoryLatency : Nat := 100
  writebackLatency : Nat := 20
  sharedMemoryBanks : Nat := 32
  globalMemorySize : Nat := 1048576
  deriving Repr, DecidableEq

/-- The latencies a configuration hands to the memory system. -/
def SystemConfig.memoryAccessConfig (config : SystemConfig) : MemoryAccessConfig where
  sharedMemoryLatency := config.sharedMemoryLatency
  l1Latency := config.l1Latency
  l2Latency := config.l2Latency
  globalMemoryLatency := config.globalMemoryLatency
  writebackLatency := config.writebackLatency

/-- What one block of a kernel needs. -/
structure KernelResourceRequirements where
  registersPerThread : Nat
  sharedMemoryPerBlock : Nat
  deriving Repr, DecidableEq

end SimSm
