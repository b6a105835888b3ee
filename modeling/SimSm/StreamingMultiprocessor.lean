import SimSm.Config
import SimSm.Executor
import SimSm.PerformanceCounter
import SimSm.Scheduler

namespace SimSm

/-!
# The streaming multiprocessor

Admission and release of blocks, and the clock tick that stalls, selects,
issues and completes warps.  The scheduler type is a parameter: every result
that does not depend on a policy holds for any of them.
-/

/-- A block of threads: its id and its warps. -/
structure ThreadBlock where
  blockId : Nat
  warps : List Warp

namespace ThreadBlock

/-- The number of threads of all warps of a block. -/
def numThreads (block : ThreadBlock) : Nat :=
  (block.warps.map fun warp => warp.threads.length).sum

end ThreadBlock

/-- What an admitted block was charged. -/
structure ResidentBlock where
  blockId : Nat
  numThreads : Nat
  numWarps : Nat
  allocatedRegisters : Nat
  allocatedSharedMemory : Nat
  deriving Repr, DecidableEq

/-- One streaming multiprocessor. -/
structure SM (σ : Type) where
  warps : List Warp := []
  scheduler : Option σ := none
  counters : PerformanceCounter := {}
  l1Cache : Cache
  sharedMemory : SharedMemory
  allocatedBlocks : Nat := 0
  allocatedWarps : Nat := 0
  allocatedThreads : Nat := 0
  allocatedRegisters : Nat := 0
  allocatedSharedMemory : Nat := 0
  residentBlocks : List ResidentBlock := []

namespace SM

variable {σ : Type}

/-- An empty multiprocessor with the caches and memory of a configuration. -/
def new (config : SystemConfig) (rng : Nat → Nat → Nat) : Except SimError (SM σ) :=
  (Cache.new config.l1Sets config.l1Associativity config.l1LineSize
      config.l1Policy rng).map
    fun cache =>
      { l1Cache := cache
        sharedMemory :=
          SharedMemory.new config.maxSharedMemoryPerSm
            config.sharedMemoryBanks }

/-- No warp is unfinished. -/
def isCompleted (sm : SM σ) : Bool :=
  if sm.warps.isEmpty && sm.residentBlocks.isEmpty then
    true
  else
    sm.warps.all fun warp => warp.state == .completed

/-- Forget all warps and blocks. -/
def clearWarps (sm : SM σ) : SM σ :=
  { sm with
    warps := []
    residentBlocks := []
    allocatedBlocks := 0
    allocatedWarps := 0
    allocatedThreads := 0
    allocatedRegisters := 0
    allocatedSharedMemory := 0 }

/-- What a block is charged under some requirements. -/
def chargeOf
    (block : ThreadBlock)
    (req : KernelResourceRequirements) :
    ResidentBlock where
  blockId := block.blockId
  numThreads := block.numThreads
  numWarps := block.warps.length
  allocatedRegisters := block.numThreads * req.registersPerThread
  allocatedSharedMemory := req.sharedMemoryPerBlock

/-- Whether a block fits next to the resident ones. -/
def canAdmit
    (sm : SM σ)
    (block : ThreadBlock)
    (config : SystemConfig)
    (req : KernelResourceRequirements) :
    Bool :=
  let charge := chargeOf block req
  decide (sm.allocatedBlocks + 1 ≤ config.maxBlocksPerSm) &&
    decide (sm.allocatedWarps + charge.numWarps ≤ config.maxWarpsPerSm) &&
    decide (sm.allocatedThreads + charge.numThreads ≤ config.maxThreadsPerSm) &&
    decide (sm.allocatedRegisters + charge.allocatedRegisters ≤
      config.maxRegistersPerSm) &&
    decide (sm.allocatedSharedMemory + charge.allocatedSharedMemory ≤
      config.maxSharedMemoryPerSm)

/-- Append one warp. -/
def addWarp (sm : SM σ) (warp : Warp) : SM σ :=
  { sm with warps := sm.warps ++ [warp] }

/-- Charge a block, record it as resident and append its warps. -/
def allocateBlock
    (sm : SM σ)
    (block : ThreadBlock)
    (req : KernelResourceRequirements) :
    SM σ :=
  let charge := chargeOf block req
  let charged :=
    { sm with
      allocatedBlocks := sm.allocatedBlocks + 1
      allocatedWarps := sm.allocatedWarps + charge.numWarps
      allocatedThreads := sm.allocatedThreads + charge.numThreads
      allocatedRegisters := sm.allocatedRegisters + charge.allocatedRegisters
      allocatedSharedMemory :=
        sm.allocatedSharedMemory + charge.allocatedSharedMemory
      residentBlocks := sm.residentBlocks ++ [charge] }
  block.warps.foldl
    (fun sm warp =>
      let added := sm.addWarp warp
      { added with
        counters := added.counters.initializeWarpIssueCount warp.warpId })
    charged

/-- Whether a warp counts as belonging to a block. -/
def belongsTo (warp : Warp) (blockId : Nat) : Bool :=
  warp.blockId? == some blockId

/-- Whether every warp of a block is completed. -/
def allCompleted (warps : List Warp) (blockId : Nat) : Bool :=
  warps.all fun warp =>
    !belongsTo warp blockId || warp.state == .completed

/-- Refund a block and drop its warps. -/
def releaseBlock (sm : SM σ) (block : ResidentBlock) : SM σ :=
  { sm with
    allocatedBlocks := sm.allocatedBlocks - 1
    allocatedWarps := sm.allocatedWarps - block.numWarps
    allocatedThreads := sm.allocatedThreads - block.numThreads
    allocatedRegisters := sm.allocatedRegisters - block.allocatedRegisters
    allocatedSharedMemory :=
      sm.allocatedSharedMemory - block.allocatedSharedMemory
    warps := sm.warps.filter fun warp => !belongsTo warp block.blockId }

/-- The release loop: `kept` are the blocks already passed over. -/
def releaseLoop (sm : SM σ) (kept : List ResidentBlock) :
    List ResidentBlock → SM σ
  | [] => { sm with residentBlocks := kept }
  | block :: rest =>
      if allCompleted sm.warps block.blockId then
        releaseLoop (sm.releaseBlock block) kept rest
      else
        releaseLoop sm (kept ++ [block]) rest

/-- Release every resident block whose warps are all completed. -/
def releaseCompletedBlocks (sm : SM σ) : SM σ :=
  sm.releaseLoop [] sm.residentBlocks

/-- Replace the warp at a position. -/
def setWarp (sm : SM σ) (index : Nat) (warp : Warp) : SM σ :=
  { sm with warps := sm.warps.set index warp }

/-- First phase of a tick: count stalls down and count one cycle. -/
def tickStalls (sm : SM σ) : SM σ :=
  let warps := sm.warps.map fun warp => warp.tickStall sm.counters.cycles
  let barrierStalls :=
    warps.countP fun warp => warp.state == .stalledAtBarrier
  { sm with
    warps := warps
    counters :=
      (sm.counters.addWarpBarrierStallCycles barrierStalls).incrementCycles }

/-- Wait accounting of one warp, given the id of the selected warp. -/
def accountWarp
    (selectedId : Option Nat)
    (counters : PerformanceCounter)
    (warp : Warp) :
    PerformanceCounter × Warp :=
  if warp.state = .ready then
    if selectedId = some warp.warpId then
      (counters.recordWarpWait warp.currentWaitCycles, warp.resetWaitCycles)
    else
      let (starved, waited) := warp.incrementWaitCycles.checkAndSetStarvation
      (if starved then counters.recordStarvationEvent else counters, waited)
  else
    (counters, warp)

/-- Wait accounting of all warps in order. -/
def accountWarps (selectedId : Option Nat) :
    PerformanceCounter → List Warp → PerformanceCounter × List Warp
  | counters, [] => (counters, [])
  | counters, warp :: rest =>
      let (counters, warp) := accountWarp selectedId counters warp
      let (counters, rest) := accountWarps selectedId counters rest
      (counters, warp :: rest)

/-- Second phase of a tick: account waits and the issue of the selected warp. -/
def accountSelection (sm : SM σ) (selected : Option Nat) : SM σ :=
  let selectedId := (selected.bind (sm.warps[·]?)).map Warp.warpId
  let (counters, warps) := accountWarps selectedId sm.counters sm.warps
  { sm with
    warps := warps
    counters :=
      match selectedId with
      | some warpId => counters.recordWarpIssue warpId
      | none => counters }

/-- The warps of a block in some state. -/
def countInBlock
    (warps : List Warp)
    (blockId : Nat)
    (holds : Warp → Bool) :
    Nat :=
  warps.countP fun warp => belongsTo warp blockId && holds warp

/--
A warp arrives at a barrier: it stalls there, and when no warp of its block is
still running, either all are released or the barrier is malformed.
-/
def handleBarrierArrival (sm : SM σ) (index : Nat) : Except SimError (SM σ) :=
  match sm.warps[index]? with
  | none => .ok sm
  | some warp =>
      let arrived := sm.setWarp index warp.setStalledAtBarrier
      let blockId := warp.blockId?.getD 0
      let totalWarps :=
        countInBlock arrived.warps blockId fun _ => true
      let completedWarps :=
        countInBlock arrived.warps blockId fun other =>
          other.state == .completed
      let stalledWarps :=
        countInBlock arrived.warps blockId fun other =>
          other.state == .stalledAtBarrier
      if stalledWarps + completedWarps = totalWarps then
        if 0 < completedWarps then
          .error .malformedBarrier
        else
          .ok
            { arrived with
              warps :=
                arrived.warps.map fun other =>
                  if belongsTo other blockId &&
                      other.state == .stalledAtBarrier then
                    other.setReady arrived.counters.cycles
                  else
                    other }
      else
        .ok arrived

/-- Resume the path popped at the end of the kernel. -/
def resumePath (warp : Warp) (nextPath : SIMTStackEntry) : Warp :=
  { warp with
    activeMask := nextPath.activeMask
    warpPc := nextPath.targetPc
    reconvergencePc := nextPath.reconvergencePc
    threads :=
      warp.threads.mapIdx fun lane thread =>
        if nextPath.activeMask.getLsbD lane then
          { thread with pc := toInt32 nextPath.targetPc }
        else
          thread }

/-- What becomes of the issued warp after its instruction. -/
def settle
    (kernel : Kernel)
    (result : ExecutionResult)
    (warp : Warp) :
    Warp :=
  if kernel.size ≤ warp.warpPc then
    match warp.popSimtStack with
    | some (nextPath, popped) => resumePath popped nextPath
    | none =>
        if warp.state ≠ .stalledAtBarrier then
          warp.setCompleted
        else
          warp
  else if result.status ≠ .barrierReached ∧ 1 < result.latency then
    warp.stall (result.latency - 1)
  else
    warp

/-- Whether an opcode is one of the three counted memory instructions. -/
def isMemoryOpcode (opcode : Opcode) : Bool :=
  opcode == .load || opcode == .store || opcode == .atomicAdd

/-- Counters of an executed instruction, before its barrier is handled. -/
def recordResult
    (inst : Instruction)
    (result : ExecutionResult)
    (counters : PerformanceCounter) :
    PerformanceCounter :=
  let counters :=
    if isMemoryOpcode inst.opcode then
      counters.incrementMemoryInstructions.addMemoryTransactions
        result.memoryTransactions
    else
      counters
  let counters :=
    if 0 < result.bankConflicts then
      counters.addBankConflictStalls result.bankConflicts
    else
      counters
  if 0 < result.dirtyEvictions then
    counters.addDirtyEvictionWritebacks result.dirtyEvictions
  else
    counters

/-- Counters of a retired instruction. -/
def retire (result : ExecutionResult) (counters : PerformanceCounter) :
    PerformanceCounter :=
  ((fun counters : PerformanceCounter =>
      counters.addStall .writeConflict)^[result.writeConflictStalls]
    counters).incrementInstructionsRetired

/-- Last phase of a tick: fetch and execute for the selected warp. -/
def issue
    (sm : SM σ)
    (index : Nat)
    (warp : Warp)
    (kernel : Kernel)
    (memory : MemorySystem) :
    Except SimError (SM σ × MemorySystem) :=
  match kernel.fetch? warp.warpPc with
  | none => .ok (sm.setWarp index warp.setCompleted, memory)
  | some inst =>
      match InstructionExecutor.execute inst (warp, memory) with
      | .error error _ => .error error
      | .ok result (executed, memory) => do
          let recorded :=
            { sm.setWarp index executed with
              counters := recordResult inst result sm.counters }
          let arrived ←
            if result.status = .barrierReached then
              recorded.handleBarrierArrival index
            else
              pure recorded
          let settled :=
            { arrived with
              warps := arrived.warps.modify index (settle kernel result)
              counters := retire result arrived.counters }
          pure (settled, memory)

/-- The lost-cycle accounting of a tick that selected nothing. -/
def idle (sm : SM σ) : SM σ :=
  if sm.warps.isEmpty then
    { sm with counters := sm.counters.addStall .noReadyWarp }
  else
    sm

/-- Simulate one clock cycle. -/
def tick [WarpScheduler σ]
    (sm : SM σ)
    (kernel : Kernel)
    (memory : MemorySystem) :
    Except SimError (SM σ × MemorySystem) :=
  if sm.isCompleted then
    .ok (sm, memory)
  else
    let stalled := sm.tickStalls
    match stalled.scheduler with
    | none =>
        .ok ({ stalled with
          counters := stalled.counters.addStall .noReadyWarp }, memory)
    | some scheduler =>
        let (selected, next) :=
          WarpScheduler.selectWarp scheduler stalled.warps
        let accounted :=
          { stalled.accountSelection selected with scheduler := some next }
        match selected.bind fun index =>
            accounted.warps[index]?.map fun warp => (index, warp) with
        | none => .ok (accounted.idle, memory)
        | some (index, warp) => accounted.issue index warp kernel memory

end SM

end SimSm
