import SimSm.StreamingMultiprocessor

namespace SimSm

/-!
# The GPU: dispatch and the run loop
-/

/-- A grid is its blocks in order. -/
structure Grid where
  blocks : List ThreadBlock

/-- The GPU. -/
structure GPU (σ : Type) where
  sms : List (SM σ)
  l2Cache : Cache
  globalMemory : GlobalMemory
  pendingBlocks : List ThreadBlock := []
  currentBlockIdx : Nat := 0
  config : SystemConfig
  req : KernelResourceRequirements := ⟨0, 0⟩

/-- Create the scheduler that a configuration names. -/
def SchedulerFactory.createScheduler
    (config : SystemConfig) :
    Except SimError Scheduler :=
  Scheduler.create config.schedulerPolicy config.activeSetSize

namespace GPU

variable {σ : Type}

/--
Build the GPU of a configuration, with one scheduler for each multiprocessor.
`rng` gives each cache its own streams of draws.
-/
def new
    (config : SystemConfig)
    (createScheduler : SystemConfig → Except SimError σ)
    (rng : Nat → Nat → Nat → Nat) :
    Except SimError (GPU σ) := do
  let l2Cache ←
    Cache.new config.l2Sets config.l2Associativity config.l2LineSize
      config.l2Policy (rng config.numSms)
  let sms ←
    (List.range config.numSms).mapM fun smId => do
      let sm : SM σ ← SM.new config (rng smId)
      let scheduler ← createScheduler config
      pure { sm with scheduler := some scheduler }
  pure
    { sms := sms
      l2Cache := l2Cache
      globalMemory := GlobalMemory.new config.globalMemorySize
      config := config }

/-- Admit pending blocks to one multiprocessor until it is full. -/
def dispatch
    (config : SystemConfig)
    (req : KernelResourceRequirements)
    (sm : SM σ) :
    List ThreadBlock → Except SimError (SM σ × List ThreadBlock)
  | [] => .ok (sm, [])
  | block :: rest =>
      if sm.canAdmit block config req then
        dispatch config req (sm.allocateBlock block req) rest
      else if sm.allocatedBlocks = 0 then
        .error .impossibleBlock
      else
        .ok (sm, block :: rest)

/-- Prepare every multiprocessor in order and dispatch to it. -/
def dispatchAll
    (config : SystemConfig)
    (req : KernelResourceRequirements)
    (prepare : SM σ → SM σ) :
    List (SM σ) → List ThreadBlock →
      Except SimError (List (SM σ) × List ThreadBlock)
  | [], pending => .ok ([], pending)
  | sm :: rest, pending => do
      let (sm, pending) ← dispatch config req (prepare sm) pending
      let (rest, pending) ← dispatchAll config req prepare rest pending
      pure (sm :: rest, pending)

/-- The blocks from the dispatch pointer on. -/
def remaining (gpu : GPU σ) : List ThreadBlock :=
  gpu.pendingBlocks.drop gpu.currentBlockIdx

/-- Dispatch from the dispatch pointer and advance it. -/
def loadBlocks (gpu : GPU σ) (prepare : SM σ → SM σ) : Except SimError (GPU σ) := do
  let (sms, pending) ←
    dispatchAll gpu.config gpu.req prepare gpu.sms gpu.remaining
  pure
    { gpu with
      sms := sms
      currentBlockIdx := gpu.pendingBlocks.length - pending.length }

/-- Clear every multiprocessor and dispatch the first wave of a grid. -/
def launchKernel
    (gpu : GPU σ)
    (grid : Grid)
    (config : SystemConfig)
    (req : KernelResourceRequirements) :
    Except SimError (GPU σ) :=
  loadBlocks
    { gpu with
      config := config
      req := req
      pendingBlocks := grid.blocks
      currentBlockIdx := 0 }
    SM.clearWarps

/-- First phase of an iteration: release completed blocks and admit new ones. -/
def refill (gpu : GPU σ) : Except SimError (GPU σ) :=
  gpu.loadBlocks SM.releaseCompletedBlocks

/-- Tick one multiprocessor against the shared level of the hierarchy. -/
def tickSm [WarpScheduler σ]
    (kernel : Kernel)
    (config : MemoryAccessConfig)
    (sm : SM σ)
    (l2Cache : Cache)
    (globalMemory : GlobalMemory) :
    Except SimError (SM σ × Cache × GlobalMemory) := do
  let (ticked, memory) ←
    sm.tick kernel
      { sharedMemory := sm.sharedMemory
        l1Cache := sm.l1Cache
        l2Cache := l2Cache
        globalMemory := globalMemory
        config := config }
  pure
    ({ ticked with
        sharedMemory := memory.sharedMemory
        l1Cache := memory.l1Cache },
      memory.l2Cache, memory.globalMemory)

/--
Second phase of an iteration: tick every uncompleted multiprocessor in order,
and report whether there was none.
-/
def tickSms [WarpScheduler σ]
    (kernel : Kernel)
    (config : MemoryAccessConfig) :
    List (SM σ) → Cache → GlobalMemory →
      Except SimError (Bool × List (SM σ) × Cache × GlobalMemory)
  | [], l2Cache, globalMemory => .ok (true, [], l2Cache, globalMemory)
  | sm :: rest, l2Cache, globalMemory =>
      if sm.isCompleted then do
        let (allDone, rest, l2Cache, globalMemory) ←
          tickSms kernel config rest l2Cache globalMemory
        pure (allDone, sm :: rest, l2Cache, globalMemory)
      else do
        let (sm, l2Cache, globalMemory) ←
          tickSm kernel config sm l2Cache globalMemory
        let (_, rest, l2Cache, globalMemory) ←
          tickSms kernel config rest l2Cache globalMemory
        pure (false, sm :: rest, l2Cache, globalMemory)

/-- One iteration of the run loop: its `all_done` flag and the GPU after it. -/
def iterate [WarpScheduler σ]
    (gpu : GPU σ)
    (kernel : Kernel) :
    Except SimError (Bool × GPU σ) := do
  let gpu ← gpu.refill
  let (allDone, sms, l2Cache, globalMemory) ←
    tickSms kernel gpu.config.memoryAccessConfig
      gpu.sms gpu.l2Cache gpu.globalMemory
  pure (allDone,
    { gpu with
      sms := sms, l2Cache := l2Cache, globalMemory := globalMemory })

/-- The run loop, for at most `fuel` iterations; `none` when they are used up. -/
def runToCompletion [WarpScheduler σ]
    (kernel : Kernel) :
    Nat → GPU σ → Option (Except SimError (GPU σ))
  | 0, _ => none
  | fuel + 1, gpu =>
      match gpu.iterate kernel with
      | .error error => some (.error error)
      | .ok (true, gpu) => some (.ok gpu)
      | .ok (false, gpu) => runToCompletion kernel fuel gpu

end GPU

end SimSm
