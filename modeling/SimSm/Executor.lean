import SimSm.MemorySystem
import SimSm.Warp

namespace SimSm

/-!
# The instruction executor

One instruction runs for every active lane of one warp.  The computation works
on the warp and the memory system together and keeps both when it throws, so
that the effects of an instruction that faults half-way are visible.
-/

/-- How an instruction ended. -/
inductive ExecutionStatus where
  | completed
  | branchTaken
  | barrierReached
  deriving Repr, DecidableEq

/-- The address space of a memory instruction, for the trace. -/
inductive MemorySpace where
  | none
  | shared
  | global
  deriving Repr, DecidableEq

/-- What the executor reports to the streaming multiprocessor. -/
structure ExecutionResult where
  status : ExecutionStatus := .completed
  latency : Nat := 1
  memoryTransactions : Nat := 0
  memorySpace : MemorySpace := .none
  writeConflictStalls : Nat := 0
  bankConflicts : Nat := 0
  dirtyEvictions : Nat := 0
  deriving Repr, DecidableEq

/-- Computations of the executor. -/
abbrev ExecM := EStateM SimError (Warp × MemorySystem)

namespace InstructionExecutor

/-- Update the warp. -/
def modifyWarp (update : Warp → Warp) : ExecM Unit :=
  modify fun state => (update state.1, state.2)

/-- Run a memory operation. -/
def onMemory (operation : MemoryM α) : ExecM α :=
  fun state =>
    match operation state.2 with
    | .ok value memory => .ok value (state.1, memory)
    | .error error memory => .error error (state.1, memory)

/--
Apply `body` to every active thread, in lane order, starting at lane number
`lane`.  A thrown exception leaves the threads before the faulting one changed.
-/
def mapActive
    (activeMask : ActiveMask)
    (body : Thread → Except SimError Thread) :
    Nat → List Thread → List Thread × Except SimError Unit
  | _, [] => ([], .ok ())
  | lane, thread :: rest =>
      match activeMask.test lane with
      | .error error => (thread :: rest, .error error)
      | .ok false =>
          let (threads, outcome) := mapActive activeMask body (lane + 1) rest
          (thread :: threads, outcome)
      | .ok true =>
          match body thread with
          | .error error => (thread :: rest, .error error)
          | .ok updated =>
              let (threads, outcome) := mapActive activeMask body (lane + 1) rest
              (updated :: threads, outcome)

/-- The per-lane loop of an instruction that only changes threads. -/
def forActiveThreads
    (activeMask : ActiveMask)
    (body : Thread → Except SimError Thread) :
    ExecM Unit :=
  fun state =>
    let (threads, outcome) := mapActive activeMask body 0 state.1.threads
    match outcome with
    | .ok () => .ok () ({ state.1 with threads := threads }, state.2)
    | .error error => .error error ({ state.1 with threads := threads }, state.2)

/-- Read one value from every active thread, paired with its lane number. -/
def gatherActive
    (activeMask : ActiveMask)
    (body : Thread → Except SimError α) :
    Nat → List Thread → Except SimError (List (Nat × α))
  | _, [] => .ok []
  | lane, thread :: rest => do
      if ← activeMask.test lane then
        let value ← body thread
        let values ← gatherActive activeMask body (lane + 1) rest
        pure ((lane, value) :: values)
      else
        gatherActive activeMask body (lane + 1) rest

/-- Write the loaded values back to their lanes' destination registers. -/
def writeLanes
    (dst : Int) :
    List (Nat × Word) → List Thread → List Thread × Except SimError Unit
  | [], threads => (threads, .ok ())
  | (lane, value) :: rest, threads =>
      match threads[lane]? with
      | none => writeLanes dst rest threads
      | some thread =>
          match thread.registers.write dst value with
          | .error error => (threads, .error error)
          | .ok registers =>
              writeLanes dst rest
                (threads.set lane { thread with registers := registers })

/-- Set the shadow pc of one thread. -/
def shadowThread (pc : Nat) (thread : Thread) : Except SimError Thread :=
  .ok { thread with pc := toInt32 pc }

/-- Set the shadow pc of every thread that was active on entry. -/
def updateShadowPcs (activeMask : ActiveMask) (pc : Nat) : ExecM Unit :=
  forActiveThreads activeMask (shadowThread pc)

/-- Set the warp pc and the shadow pcs of the active threads. -/
def advanceTo (activeMask : ActiveMask) (pc : Nat) : ExecM Unit := do
  modifyWarp fun warp => { warp with warpPc := pc }
  updateShadowPcs activeMask pc

/-- `ADD`, `SUB` and `MUL` differ in their operation only. -/
def arithmeticThread
    (operation : Word → Word → Word)
    (inst : Instruction)
    (thread : Thread) :
    Except SimError Thread := do
  let val1 ← thread.registers.read inst.src1
  let val2 ← thread.registers.read inst.src2
  let registers ← thread.registers.write inst.dst (operation val1 val2)
  pure { thread with registers := registers }

/-- `MOV` from an immediate or from a register. -/
def movThread (inst : Instruction) (thread : Thread) : Except SimError Thread := do
  if inst.src1 = -1 then
    let registers ←
      thread.registers.write inst.dst (BitVec.ofInt 32 inst.immediate)
    pure { thread with registers := registers }
  else
    let val ← thread.registers.read inst.src1
    let registers ← thread.registers.write inst.dst val
    pure { thread with registers := registers }

/-- `CMP` sets the predicate. -/
def cmpThread (inst : Instruction) (thread : Thread) : Except SimError Thread := do
  let val1 ← thread.registers.read inst.src1
  let val2 ← thread.registers.read inst.src2
  pure { thread with predicate := val1 == val2 }

/-- An address operand: register `src`, if any, plus the immediate. -/
def effectiveAddress
    (src : Int)
    (inst : Instruction)
    (thread : Thread) :
    Except SimError Nat := do
  if src = -1 then
    pure (sizeT inst.immediate)
  else
    let base ← thread.registers.read src
    pure (sizeT (base.toInt + inst.immediate))

/-- Address and value of one lane of `STORE` or `ATOMIC_ADD`. -/
def storeOperand
    (inst : Instruction)
    (thread : Thread) :
    Except SimError (Nat × Word) := do
  let address ← effectiveAddress inst.src2 inst thread
  let value ← thread.registers.read inst.src1
  pure (address, value)

/-- The space of a memory instruction, told from its first address. -/
def memorySpaceOf (address : Nat) : MemorySpace :=
  if MemorySystem.sharedMemBase ≤ address then .shared else .global

/-- The largest number of lanes that name one address. -/
def maxCollisions (addresses : List Nat) : Nat :=
  (addresses.map fun address => addresses.count address).foldl max 0

/-- Instructions that change active threads only and then fall through. -/
def executeThreads
    (warp : Warp)
    (body : Thread → Except SimError Thread) :
    ExecM ExecutionResult := do
  forActiveThreads warp.activeMask body
  advanceTo warp.activeMask (nextPc warp.warpPc)
  pure {}

/-- Write loaded values back to the destination register of their lanes. -/
def writeBack (dst : Int) (values : List (Nat × Word)) : ExecM Unit :=
  fun state =>
    let (threads, outcome) := writeLanes dst values state.1.threads
    match outcome with
    | .ok () => .ok () ({ state.1 with threads := threads }, state.2)
    | .error error => .error error ({ state.1 with threads := threads }, state.2)

/-- Load one value for each lane and address; no access without active lanes. -/
def loadLanes (inst : Instruction) :
    List (Nat × Nat) → ExecM ExecutionResult
  | [] => pure {}
  | first :: rest => do
      let lanes := first :: rest
      let (outValues, res) ←
        onMemory (MemorySystem.warpLoad (lanes.map Prod.snd))
      writeBack inst.dst ((lanes.map Prod.fst).zip outValues)
      pure
        { latency := res.totalLatency
          memoryTransactions := res.numTransactions
          memorySpace := memorySpaceOf first.2
          bankConflicts := res.bankConflictStalls
          dirtyEvictions := res.dirtyEvictionWritebacks }

/-- `LOAD`. -/
def executeLoad (inst : Instruction) (warp : Warp) : ExecM ExecutionResult := do
  let lanes ←
    liftExcept
      (gatherActive warp.activeMask (effectiveAddress inst.src1 inst)
        0 warp.threads)
  let result ← loadLanes inst lanes
  advanceTo warp.activeMask (nextPc warp.warpPc)
  pure result

/-- Perform the accesses of a store; none without active lanes. -/
def storeLanes
    (operation : List (Nat × Word) → MemoryM WarpMemoryResult) :
    List (Nat × Word) → ExecM ExecutionResult
  | [] => pure {}
  | first :: rest => do
      let accesses := first :: rest
      let collisions := maxCollisions (accesses.map Prod.fst)
      let writeConflictStalls := if 1 < collisions then collisions - 1 else 0
      let res ← onMemory (operation accesses)
      pure
        { latency := res.totalLatency + writeConflictStalls
          memoryTransactions := res.numTransactions
          memorySpace := memorySpaceOf first.1
          writeConflictStalls := writeConflictStalls
          bankConflicts := res.bankConflictStalls
          dirtyEvictions := res.dirtyEvictionWritebacks }

/-- `STORE` and `ATOMIC_ADD` differ in the memory operation only. -/
def executeStore
    (operation : List (Nat × Word) → MemoryM WarpMemoryResult)
    (inst : Instruction)
    (warp : Warp) :
    ExecM ExecutionResult := do
  let lanes ←
    liftExcept
      (gatherActive warp.activeMask (storeOperand inst) 0 warp.threads)
  let result ← storeLanes operation (lanes.map Prod.snd)
  advanceTo warp.activeMask (nextPc warp.warpPc)
  pure result

/-- The active lanes whose predicate is set. -/
def takenMask
    (activeMask : ActiveMask) :
    Nat → List Thread → ActiveMask → Except SimError ActiveMask
  | _, [], taken => .ok taken
  | lane, thread :: rest, taken => do
      let active ← activeMask.test lane
      takenMask activeMask (lane + 1) rest
        (if active && thread.predicate then taken.set lane else taken)

/--
`BRANCH`: uniform when no or every active lane takes it; otherwise the lanes
that do not take it are deferred on the SIMT stack.
-/
def executeBranch (inst : Instruction) (warp : Warp) : ExecM ExecutionResult := do
  let taken ← liftExcept (takenMask warp.activeMask 0 warp.threads 0)
  if taken = 0 then
    advanceTo warp.activeMask (nextPc warp.warpPc)
    pure {}
  else if taken = warp.activeMask then
    advanceTo warp.activeMask (branchPc warp.warpPc inst.immediate)
    pure { status := .branchTaken }
  else
    let deferred : SIMTStackEntry :=
      { activeMask := warp.activeMask &&& ~~~taken
        targetPc := nextPc warp.warpPc
        reconvergencePc := warp.reconvergencePc }
    modifyWarp fun current =>
      { current.pushSimtStack deferred with activeMask := taken }
    advanceTo warp.activeMask (branchPc warp.warpPc inst.immediate)
    pure { status := .branchTaken }

/-- `SSY`: push a reconvergence token that targets the `SYNC`. -/
def executeSsy (inst : Instruction) (warp : Warp) : ExecM ExecutionResult := do
  let recToken : SIMTStackEntry :=
    { activeMask := warp.activeMask
      targetPc := branchPc warp.warpPc inst.immediate
      reconvergencePc := warp.reconvergencePc }
  modifyWarp fun current =>
    { current.pushSimtStack recToken with
      reconvergencePc := branchPc warp.warpPc inst.immediate }
  advanceTo warp.activeMask (nextPc warp.warpPc)
  pure {}

/--
`SYNC`: pop one entry.  An entry that targets this very pc is taken for the
reconvergence token, every other one for a deferred path.
-/
def executeSync (warp : Warp) : ExecM ExecutionResult := do
  match warp.popSimtStack with
  | none => throw .syncEmptyStack
  | some (nextPath, popped) =>
      let resumed :=
        { popped with
          activeMask := nextPath.activeMask
          reconvergencePc := nextPath.reconvergencePc }
      modifyWarp fun _ => resumed
      advanceTo warp.activeMask
        (if nextPath.targetPc = warp.warpPc then
          nextPc warp.warpPc
        else
          nextPath.targetPc)
      pure {}

/-- `BARRIER`: every thread of the warp has to be active. -/
def executeBarrier (warp : Warp) : ExecM ExecutionResult := do
  if warp.activeMask.count ≠ warp.threads.length then
    throw .divergentBarrier
  else
    advanceTo warp.activeMask (nextPc warp.warpPc)
    pure { status := .barrierReached }

/-- The opcode switch. -/
def executeOpcode (inst : Instruction) (warp : Warp) : ExecM ExecutionResult :=
  match inst.opcode with
  | .add => executeThreads warp (arithmeticThread (· + ·) inst)
  | .sub => executeThreads warp (arithmeticThread (· - ·) inst)
  | .mul => executeThreads warp (arithmeticThread (· * ·) inst)
  | .mov => executeThreads warp (movThread inst)
  | .load => executeLoad inst warp
  | .store => executeStore MemorySystem.warpStore inst warp
  | .atomicAdd => executeStore MemorySystem.warpAtomicAdd inst warp
  | .cmp => executeThreads warp (cmpThread inst)
  | .branch => executeBranch inst warp
  | .ssy => executeSsy inst warp
  | .sync => executeSync warp
  | .barrier => executeBarrier warp
  | .unknown => throw .unknownOpcode

/-- Execute one instruction for the active threads of the warp. -/
def execute (inst : Instruction) : ExecM ExecutionResult := do
  let state ← get
  executeOpcode inst state.1

end InstructionExecutor

end SimSm
