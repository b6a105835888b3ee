import Mathlib.Data.List.Dedup
import Mathlib.Data.List.Sort
import SimSm.Cache

namespace SimSm

/-!
# The memory system seen by one streaming multiprocessor

Addresses from `sharedMemBase` on are shared memory; all others are global
memory behind the two caches.  The caches decide latencies and statistics, the
two memories hold the data.
-/

/-- Attach an exception to a state-keeping computation. -/
def liftExcept (result : Except SimError α) : EStateM SimError σ α :=
  fun state =>
    match result with
    | .ok value => .ok value state
    | .error error => .error error state

/-- Global memory: `size` cells, each one `int`. -/
structure GlobalMemory where
  size : Nat
  data : Nat → Word

namespace GlobalMemory

/-- A zeroed memory. -/
def new (size : Nat) : GlobalMemory where
  size := size
  data := fun _ => 0

/-- Bounds-checked load. -/
def load (memory : GlobalMemory) (address : Nat) : Except SimError Word :=
  if address < memory.size then
    .ok (memory.data address)
  else
    .error .globalMemory

/-- Bounds-checked store. -/
def store
    (memory : GlobalMemory)
    (address : Nat)
    (value : Word) :
    Except SimError GlobalMemory :=
  if address < memory.size then
    .ok { memory with data := Function.update memory.data address value }
  else
    .error .globalMemory

end GlobalMemory

/-- The shared memory of one streaming multiprocessor. -/
structure SharedMemory where
  size : Nat
  data : Nat → Word
  numBanks : Nat

namespace SharedMemory

/-- A zeroed shared memory. -/
def new (size numBanks : Nat) : SharedMemory where
  size := size
  data := fun _ => 0
  numBanks := numBanks

/-- Bounds-checked load. -/
def load (memory : SharedMemory) (address : Nat) : Except SimError Word :=
  if address < memory.size then
    .ok (memory.data address)
  else
    .error .sharedMemory

/-- Bounds-checked store. -/
def store
    (memory : SharedMemory)
    (address : Nat)
    (value : Word) :
    Except SimError SharedMemory :=
  if address < memory.size then
    .ok { memory with data := Function.update memory.data address value }
  else
    .error .sharedMemory

/-- The distinct words of an address vector that fall in one bank. -/
def bankWords (memory : SharedMemory) (addresses : List Nat) (bank : Nat) :
    List Nat :=
  ((addresses.map (· / 4)).filter fun word =>
    word % memory.numBanks == bank).dedup

/-- Additional serialisation cycles of one warp access. -/
def computeBankConflicts (memory : SharedMemory) (addresses : List Nat) : Nat :=
  if addresses.isEmpty ∨ memory.numBanks = 0 then
    0
  else
    let maxUnique :=
      (addresses.map fun address =>
          (memory.bankWords addresses (address / 4 % memory.numBanks)).length).foldl
        max 0
    if 0 < maxUnique then maxUnique - 1 else 0

end SharedMemory

/-- The distinct line base addresses of a warp access, in increasing order. -/
def coalesce (addresses : List Nat) (lineSize : Nat) : List Nat :=
  if lineSize = 0 then
    addresses
  else
    (addresses.map fun address => address / lineSize * lineSize).dedup.insertionSort
      (· ≤ ·)

/-- Latencies of the memory hierarchy. -/
structure MemoryAccessConfig where
  sharedMemoryLatency : Nat := 1
  l1Latency : Nat := 5
  l2Latency : Nat := 20
  globalMemoryLatency : Nat := 100
  writebackLatency : Nat := 20
  deriving Repr, DecidableEq

/-- Timing of one warp memory instruction. -/
structure WarpMemoryResult where
  totalLatency : Nat
  numTransactions : Nat
  bankConflictStalls : Nat := 0
  dirtyEvictionWritebacks : Nat := 0
  deriving Repr, DecidableEq

/-- The memories and caches one warp instruction works on. -/
structure MemorySystem where
  sharedMemory : SharedMemory
  l1Cache : Cache
  l2Cache : Cache
  globalMemory : GlobalMemory
  config : MemoryAccessConfig

/-- The smallest memory system: single-line caches and a few cells. -/
def MemorySystem.minimal (cells : Nat) : MemorySystem where
  sharedMemory := SharedMemory.new cells 1
  l1Cache :=
    { numSets := 1, associativity := 1, lineSize := 1, stats := {}
      sets := [[{}]], policies := [.lru (LRUPolicy.new 1)] }
  l2Cache :=
    { numSets := 1, associativity := 1, lineSize := 1, stats := {}
      sets := [[{}]], policies := [.lru (LRUPolicy.new 1)] }
  globalMemory := GlobalMemory.new cells
  config := {}

/-- Memory operations: the state survives an exception. -/
abbrev MemoryM := EStateM SimError MemorySystem

namespace MemorySystem

/-- First address of shared memory. -/
def sharedMemBase : Nat := 0x10000000

/-- Run a cache operation on the L1 cache. -/
def onL1 (operation : CacheM α) : MemoryM α :=
  fun memory =>
    match operation memory.l1Cache with
    | .ok value cache => .ok value { memory with l1Cache := cache }
    | .error error cache => .error error { memory with l1Cache := cache }

/-- Run a cache operation on the L2 cache. -/
def onL2 (operation : CacheM α) : MemoryM α :=
  fun memory =>
    match operation memory.l2Cache with
    | .ok value cache => .ok value { memory with l2Cache := cache }
    | .error error cache => .error error { memory with l2Cache := cache }

/-- Load one global cell. -/
def globalLoad (address : Nat) : MemoryM Word := do
  let memory ← get
  liftExcept (memory.globalMemory.load address)

/-- Store one global cell. -/
def globalStore (address : Nat) (value : Word) : MemoryM Unit := do
  let memory ← get
  let globalMemory ← liftExcept (memory.globalMemory.store address value)
  set { memory with globalMemory := globalMemory }

/-- Load one shared cell; also returns the latency. -/
def sharedLoad (address : Nat) : MemoryM (Word × Nat) := do
  let memory ← get
  let value ← liftExcept (memory.sharedMemory.load address)
  pure (value, memory.config.sharedMemoryLatency)

/-- Store one shared cell; returns the latency. -/
def sharedStore (address : Nat) (value : Word) : MemoryM Nat := do
  let memory ← get
  let sharedMemory ← liftExcept (memory.sharedMemory.store address value)
  set { memory with sharedMemory := sharedMemory }
  pure memory.config.sharedMemoryLatency

/-- Latency of a global read, and the number of dirty lines it evicted. -/
def readLatency (address : Nat) : MemoryM (Nat × Nat) := do
  let config := (← get).config
  let l1Result ← onL1 (Cache.access address)
  if l1Result.hit then
    pure (config.l1Latency, 0)
  else
    let l2Result ← onL2 (Cache.access address)
    let latency :=
      if l2Result.hit then
        config.l1Latency + config.l2Latency
      else
        config.l1Latency + (config.l2Latency + config.globalMemoryLatency)
    if l1Result.dirtyEviction then
      pure (latency + config.writebackLatency, 1)
    else
      pure (latency, 0)

/-- Latency of a global write, and the number of dirty lines it evicted. -/
def writeLatency (address : Nat) : MemoryM (Nat × Nat) := do
  let config := (← get).config
  let l1Result ← onL1 (Cache.write address)
  let latency ←
    if l1Result.hit then
      pure config.l1Latency
    else do
      let l2Result ← onL2 (Cache.access address)
      if l2Result.hit then
        pure (config.l1Latency + config.l2Latency)
      else
        pure (config.l1Latency +
          (config.l2Latency + config.globalMemoryLatency))
  if l1Result.dirtyEviction then
    pure (latency + config.writebackLatency, 1)
  else
    pure (latency, 0)

/-- Scalar load: the value and its latency. -/
def load (address : Nat) : MemoryM (Word × Nat) := do
  if sharedMemBase ≤ address then
    sharedLoad (address - sharedMemBase)
  else
    let (latency, _) ← readLatency address
    let value ← globalLoad address
    pure (value, latency)

/-- Scalar store: its latency. -/
def store (address : Nat) (value : Word) : MemoryM Nat := do
  if sharedMemBase ≤ address then
    sharedStore (address - sharedMemBase) value
  else
    let (latency, _) ← writeLatency address
    globalStore address value
    pure latency

/-- Whether an address is a shared-memory address. -/
def isShared (address : Nat) : Bool :=
  decide (sharedMemBase ≤ address)

/--
Charge every coalesced line of a warp access, in order: the largest latency,
starting from one, and the total number of dirty evictions.
-/
def chargeTransactions
    (latencyOf : Nat → MemoryM (Nat × Nat)) :
    List Nat → Nat → Nat → MemoryM (Nat × Nat)
  | [], maxLatency, dirtyEvictions =>
      pure (maxLatency, dirtyEvictions)
  | lineBase :: rest, maxLatency, dirtyEvictions => do
      let (latency, dirty) ← latencyOf lineBase
      chargeTransactions latencyOf rest
        (max maxLatency latency) (dirtyEvictions + dirty)

/-- Perform one access per shared address, in order, with the largest latency. -/
def sharedAccesses
    (access : Nat → β → MemoryM (α × Nat)) :
    List (Nat × β) → Nat → MemoryM (List α × Nat)
  | [], maxLatency => pure ([], maxLatency)
  | (address, argument) :: rest, maxLatency => do
      let (value, latency) ← access (address - sharedMemBase) argument
      let (values, latencies) ←
        sharedAccesses access rest (max maxLatency latency)
      pure (value :: values, latencies)

/-- Perform one access per global address, in order. -/
def globalAccesses
    (access : Nat → β → MemoryM α) :
    List (Nat × β) → MemoryM (List α)
  | [] => pure []
  | (address, argument) :: rest => do
      let value ← access address argument
      let values ← globalAccesses access rest
      pure (value :: values)

/--
The shape shared by the three warp memory instructions: one address space per
instruction; shared accesses pay for bank conflicts, global ones for their
coalesced lines.  Each instruction supplies its latency function and its two
per-lane accesses.
-/
def warpAccess
    (latencyOf : Nat → MemoryM (Nat × Nat))
    (onShared : Nat → β → MemoryM (α × Nat))
    (onGlobal : Nat → β → MemoryM α)
    (accesses : List (Nat × β)) :
    MemoryM (List α × WarpMemoryResult) := do
  let addresses := accesses.map Prod.fst
  match addresses with
  | [] => pure ([], { totalLatency := 0, numTransactions := 0 })
  | first :: _ =>
      if addresses.any fun address => isShared address != isShared first then
        throw .mixedAddressSpaces
      else if isShared first then
        let memory ← get
        let bankConflicts :=
          memory.sharedMemory.computeBankConflicts
            (addresses.map (· - sharedMemBase))
        let (values, maxLatency) ← sharedAccesses onShared accesses 0
        pure (values,
          { totalLatency := maxLatency + bankConflicts
            numTransactions := addresses.length
            bankConflictStalls := bankConflicts })
      else
        let memory ← get
        let transactions := coalesce addresses memory.l1Cache.lineSize
        let (maxLatency, dirtyEvictions) ←
          chargeTransactions latencyOf transactions 1 0
        let values ← globalAccesses onGlobal accesses
        pure (values,
          { totalLatency :=
              maxLatency +
                if 0 < transactions.length then transactions.length - 1 else 0
            numTransactions := transactions.length
            dirtyEvictionWritebacks := dirtyEvictions })

/-- Load one value per address. -/
def warpLoad (addresses : List Nat) : MemoryM (List Word × WarpMemoryResult) :=
  warpAccess readLatency
    (fun address (_ : Unit) => sharedLoad address)
    (fun address _ => globalLoad address)
    (addresses.map fun address => (address, ()))

/-- Store one value per address, lowest lane first. -/
def warpStore (accesses : List (Nat × Word)) : MemoryM WarpMemoryResult := do
  let (_, result) ←
    warpAccess writeLatency
      (fun address value => do
        let latency ← sharedStore address value
        pure ((), latency))
      globalStore
      accesses
  pure result

/-- Add one value per address, lowest lane first. -/
def warpAtomicAdd (accesses : List (Nat × Word)) : MemoryM WarpMemoryResult := do
  let (_, result) ←
    warpAccess writeLatency
      (fun address value => do
        let memory ← get
        let currentVal ← liftExcept (memory.sharedMemory.load address)
        let latency ← sharedStore address (currentVal + value)
        pure ((), latency))
      (fun address value => do
        let currentVal ← globalLoad address
        globalStore address (currentVal + value))
      accesses
  pure result

end MemorySystem

end SimSm
