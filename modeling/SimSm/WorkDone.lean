import SimSm.LaneMemory
import SimSm.Reported
import SimSm.Transactions

namespace SimSm

/-!
# The work of oblivious kernels

A kernel that falls through to its end, and whose addresses come from registers
that it never writes, does the same work however it is scheduled: what every
warp still has to do is decided by where it is and by those registers, and a
tick only moves some of it to the counters.
-/

open Interleaving Outcome PerformanceCounter

/-- What the counters count of executed instructions. -/
inductive Work where
  | instructions
  | memoryInstructions
  | memoryTransactions
  deriving DecidableEq

/-- What a multiprocessor has counted of some work. -/
def PerformanceCounter.done (counters : PerformanceCounter) : Work → Nat
  | .instructions => counters.instructionsRetired
  | .memoryInstructions => counters.memoryInstructions
  | .memoryTransactions => counters.memoryTransactions

/-- What executing an instruction adds to some work. -/
def PathState.adds
    (lineSize : Nat)
    (work : Work)
    (state : PathState)
    (inst : Instruction) :
    Nat :=
  match work with
  | .instructions => 1
  | .memoryInstructions => (SM.isMemoryOpcode inst.opcode).toNat
  | .memoryTransactions => state.transactions lineSize inst

/-- The opcodes that write a register. -/
def Opcode.writesRegister : Opcode → Bool
  | .add | .sub | .mul | .mov | .load => true
  | _ => false

/-- The operand that names the address of a memory instruction. -/
def Instruction.addressOperand (inst : Instruction) : Int :=
  if inst.opcode = .load then inst.src1 else inst.src2

/--
Every instruction falls through, and none writes a register that a memory
instruction takes its address from.
-/
structure Kernel.Oblivious (kernel : Kernel) : Prop where
  straight : ∀ inst ∈ kernel.instructions, inst.Straight
  addresses :
    ∀ inst ∈ kernel.instructions,
      SM.isMemoryOpcode inst.opcode = true →
      ∀ other ∈ kernel.instructions,
        other.opcode.writesRegister = true →
        sizeT other.dst ≠ sizeT inst.addressOperand

/-- An oblivious kernel has no barrier. -/
theorem Kernel.Oblivious.noBarrier
    {kernel : Kernel}
    (oblivious : kernel.Oblivious) :
    kernel.NoBarrier :=
  fun inst member => (oblivious.straight inst member).2

/-! ## What instructions leave of addresses -/

namespace LaneState

/-- An instruction keeps the registers that it does not write. -/
theorem read_executeWith
    {inst : Instruction}
    {operand : Int}
    (elsewhere :
      inst.opcode.writesRegister = true →
      sizeT inst.dst ≠ sizeT operand)
    (view : Nat → Word)
    (lane : LaneState) :
    (lane.executeWith inst view).read operand = lane.read operand := by
  have written
      (writes : inst.opcode.writesRegister = true)
      (value : Word) :
      (lane.write inst.dst value).read operand = lane.read operand := by
    simp only [read, write, Vector.getElem?_setIfInBounds,
      elsewhere writes, if_false]
  cases opcode : inst.opcode <;>
    simp only [executeWith, execute, opcode, if_true, reduceCtorEq,
      if_false]
  case add | sub | mul | mov | load =>
    exact written (by rw [opcode]; rfl) _
  case cmp => rfl

/-- The address of an access, if the instruction is one to memory. -/
theorem access?_address
    (inst : Instruction)
    (lane : LaneState) :
    (lane.access? inst).map Access.address =
      if SM.isMemoryOpcode inst.opcode then
        some (lane.address inst.addressOperand inst)
      else
        none := by
  cases opcode : inst.opcode <;>
    simp [access?, opcode, SM.isMemoryOpcode, Instruction.addressOperand,
      Access.address]

/-- An instruction keeps the addresses that it writes no register of. -/
theorem access?_executeWith
    {inst other : Instruction}
    (elsewhere :
      SM.isMemoryOpcode inst.opcode = true →
      other.opcode.writesRegister = true →
      sizeT other.dst ≠ sizeT inst.addressOperand)
    (view : Nat → Word)
    (lane : LaneState) :
    ((lane.executeWith other view).access? inst).map Access.address =
      (lane.access? inst).map Access.address := by
  rw [access?_address, access?_address]
  split
  · rename_i isMemory
    rw [address, address, read_executeWith (elsewhere isMemory)]
  · rfl

end LaneState

/-- What is read off the active lanes depends on what is read off all. -/
theorem filterMap_activeLanes
    {extract : LaneState → Option α}
    {mask : ActiveMask}
    {start : Nat}
    {lanes others : List LaneState}
    (same : others.map extract = lanes.map extract) :
    (activeLanes mask start others).filterMap (fun lane => extract lane.2) =
      (activeLanes mask start lanes).filterMap
        fun lane => extract lane.2 := by
  induction lanes generalizing others start with
  | nil => rw [List.map_eq_nil_iff.mp same]
  | cons lane rest inductionHypothesis =>
      obtain ⟨other, otherRest, rfl, sameFirst, sameRest⟩ :=
        List.map_eq_cons_iff.mp same
      have later := @inductionHypothesis (start + 1) otherRest sameRest
      unfold activeLanes
      split
      · rw [List.filterMap_cons, List.filterMap_cons, later]
        dsimp only
        rw [sameFirst]
      · exact later

namespace PathState

/-- A straight instruction moves the path to the next pc and its lanes on. -/
theorem executeWith_straight
    {inst : Instruction}
    (straight : inst.Straight)
    {view : Nat → Word}
    {before after : PathState}
    (executes : before.executeWith inst view = some after) :
    after =
      { before.goto (nextPc before.current.pc) with
        lanes :=
          onMask before.current.mask (LaneState.executeWith inst view)
            before.lanes } := by
  obtain ⟨next, moved, rfl⟩ := Option.map_eq_some_iff.mp executes
  have noControl := straight.1
  unfold execute at moved
  cases opcode : inst.opcode <;>
    simp only [opcode, Opcode.isControl, Option.some.injEq] at moved noControl
  case branch | ssy | sync => cases noControl
  all_goals
    subst moved
    rfl

/-- The next instruction leaves the addresses of the others alone. -/
theorem transactions_executeWith
    {inst other : Instruction}
    (elsewhere :
      SM.isMemoryOpcode inst.opcode = true →
      other.opcode.writesRegister = true →
      sizeT other.dst ≠ sizeT inst.addressOperand)
    {view : Nat → Word}
    {before after : PathState}
    (straight : other.Straight)
    (executes : before.executeWith other view = some after)
    (lineSize : Nat) :
    after.transactions lineSize inst = before.transactions lineSize inst := by
  obtain rfl := executeWith_straight straight executes
  have sameAddresses :
      (onMask before.current.mask (LaneState.executeWith other view)
            before.lanes).map
          (fun lane => (lane.access? inst).map Access.address) =
        before.lanes.map
          fun lane => (lane.access? inst).map Access.address := by
    apply List.ext_getElem?
    intro lane
    rw [List.getElem?_map, getElem?_onMask, List.getElem?_map,
      Option.map_map]
    congr 1
    funext state
    rw [Function.comp_apply]
    split
    · exact LaneState.access?_executeWith elsewhere view state
    · rfl
  unfold transactions accesses
  rw [List.map_filterMap, List.map_filterMap]
  exact congrArg _ (filterMap_activeLanes sameAddresses)

end PathState

/-! ## The work of a warp -/

namespace Warp

/-- What a warp still has to do. -/
def due
    (kernel : Kernel)
    (lineSize : Nat)
    (work : Work)
    (warp : Warp) :
    Nat :=
  if warp.state = .completed then
    0
  else
    ((kernel.instructions.drop warp.warpPc).map
      (warp.paths.adds lineSize work)).sum

section Remaining

variable {kernel : Kernel}
variable {lineSize : Nat}
variable {work : Work}
variable {before after warp executed : Warp}

/-- What remains depends on the paths and on completion. -/
theorem due_congr
    (paths : after.paths = before.paths)
    (completed : after.state = .completed ↔ before.state = .completed) :
    after.due kernel lineSize work =
      before.due kernel lineSize work := by
  have samePc : after.warpPc = before.warpPc :=
    congrArg (fun state => state.current.pc) paths
  unfold due
  simp only [completed, paths, samePc]

/-- What an oblivious kernel adds is not changed by executing it. -/
theorem adds_executeWith
    (oblivious : kernel.Oblivious)
    {inst other : Instruction}
    (isInst : inst ∈ kernel.instructions)
    (isOther : other ∈ kernel.instructions)
    {view : Nat → Word}
    {state next : PathState}
    (executes : state.executeWith other view = some next) :
    next.adds lineSize work inst = state.adds lineSize work inst := by
  cases work with
  | instructions => rfl
  | memoryInstructions => rfl
  | memoryTransactions =>
      exact
        PathState.transactions_executeWith
          (fun isMemory => oblivious.addresses inst isInst isMemory other isOther)
          (oblivious.straight other isOther) executes lineSize

/-- An executed instruction moves what it adds out of what remains. -/
theorem settle_due
    (oblivious : kernel.Oblivious)
    {inst : Instruction}
    {memory memory' : MemorySystem}
    {result : ExecutionResult}
    (ready : warp.state = .ready)
    (onePath : warp.paths.pending = [])
    (fetched : kernel.fetch? warp.warpPc = some inst)
    (ran :
      InstructionExecutor.execute inst (warp, memory) =
        .ok result (executed, memory')) :
    (SM.settle kernel result executed).paths.pending = [] ∧
      (SM.settle kernel result executed).due kernel lineSize work +
          warp.paths.adds lineSize work inst =
        warp.due kernel lineSize work := by
  have inside := Kernel.fetch?_lt fetched
  have member : inst ∈ kernel.instructions := List.mem_of_getElem? fetched
  have executes := (InstructionExecutor.execute_memory ran).1
  have moved :=
    PathState.executeWith_straight (oblivious.straight inst member) executes
  have pending : executed.paths.pending = [] := by
    rw [moved]
    exact onePath
  have nextPc : executed.warpPc = warp.warpPc + 1 := by
    have atPc := congrArg (fun state => state.current.pc) moved
    exact atPc.trans (Kernel.nextPc_eq inside)
  have settled :
      (SM.settle kernel result executed).paths = executed.paths := by
    rw [SM.settle_paths]
    unfold PathState.settle
    rw [pending]
    split <;> rfl
  refine ⟨by rw [settled, pending], ?_⟩
  -- what is left after the instruction, whether or not that ends the warp
  have left :
      (SM.settle kernel result executed).due kernel lineSize work =
        ((kernel.instructions.drop (warp.warpPc + 1)).map
          (warp.paths.adds lineSize work)).sum := by
    have samePc :
        (SM.settle kernel result executed).warpPc = warp.warpPc + 1 :=
      (congrArg (fun state => state.current.pc) settled).trans nextPc
    have readyToo : executed.state = .ready :=
      (InstructionExecutor.execute_ok ran).shell.state.trans ready
    unfold due
    rcases @SM.settle_ready kernel result executed readyToo with
      ⟨⟨outside, _⟩, completed⟩ | ⟨_, running⟩
    · rw [nextPc] at outside
      rw [if_pos completed, List.drop_eq_nil_of_le outside]
      rfl
    · rw [if_neg running.2, settled, samePc]
      congr 1
      refine List.map_congr_left fun other isLater => ?_
      exact
        adds_executeWith oblivious (List.mem_of_mem_drop isLater) member
          executes
  have rest :
      kernel.instructions.drop warp.warpPc =
        inst :: kernel.instructions.drop (warp.warpPc + 1) := by
    obtain ⟨position, isInst⟩ := List.getElem?_eq_some_iff.mp fetched
    rw [List.drop_eq_getElem_cons position, isInst]
  have unfinished : warp.state ≠ .completed := by
    rw [ready]
    exact WarpState.noConfusion
  rw [left, due, if_neg unfinished, rest, List.map_cons,
    List.sum_cons, Nat.add_comm]

/-- Past the end nothing remains. -/
theorem due_pastEnd
    (outside : kernel.size ≤ warp.warpPc) :
    warp.due kernel lineSize work = 0 := by
  unfold due
  rw [List.drop_eq_nil_of_le outside]
  split <;> rfl

end Remaining

end Warp

/-! ## The work of a multiprocessor -/

namespace SM

variable {σ : Type}
variable {kernel : Kernel}
variable {lineSize : Nat}
variable {work : Work}

/-- What the warps of a multiprocessor still have to do. -/
def due
    (kernel : Kernel)
    (lineSize : Nat)
    (work : Work)
    (sm : SM σ) :
    Nat :=
  (sm.warps.map (Warp.due kernel lineSize work)).sum

/-- No warp has diverged, and the L1 lines are of one size. -/
structure Undiverged (lineSize : Nat) (sm : SM σ) : Prop where
  warps : ∀ warp ∈ sm.warps, warp.paths.pending = []
  lineSize : sm.l1Cache.lineSize = lineSize

/-- Counters that agree on the work agree on all that is done. -/
theorem done_of_sameWork
    {before after : PerformanceCounter}
    (same : SameWork before after) :
    after.done work = before.done work := by
  cases work with
  | instructions => exact same.retired
  | memoryInstructions => exact same.memory
  | memoryTransactions => exact same.transactions

/-- What a retired instruction adds to the work. -/
theorem retire_done
    {inst : Instruction}
    {warp executed : Warp}
    {memory memory' : MemorySystem}
    {result : ExecutionResult}
    (isLineSize : memory.l1Cache.lineSize = lineSize)
    (ran :
      InstructionExecutor.execute inst (warp, memory) =
        .ok result (executed, memory'))
    (counters : PerformanceCounter) :
    (retire result (recordResult inst result counters)).done work =
      counters.done work + warp.paths.adds lineSize work inst := by
  obtain ⟨retired, memoryInstructions, transactions, _⟩ :=
    retire_work inst result counters
  cases work with
  | instructions => exact retired
  | memoryInstructions => exact memoryInstructions
  | memoryTransactions =>
      have counted := (InstructionExecutor.execute_transacts ran).transactions
      rw [isLineSize] at counted
      refine transactions.trans (congrArg _ ?_)
      cases isMemory : isMemoryOpcode inst.opcode with
      | true => rw [Bool.toNat_true, Nat.one_mul, counted]; rfl
      | false =>
          have none :=
            InstructionExecutor.transactions_of_not_memory isMemory ran
          rw [Bool.toNat_false, Nat.zero_mul]
          exact none.symm.trans counted

/-- Issuing a warp moves what its instruction adds to the counters. -/
theorem issue_due
    {sm after : SM σ}
    {index : Nat}
    {warp : Warp}
    {memory memory' : MemorySystem}
    (oblivious : kernel.Oblivious)
    (isLineSize : memory.l1Cache.lineSize = lineSize)
    (found : sm.warps[index]? = some warp)
    (ready : warp.state = .ready)
    (onePath : warp.paths.pending = [])
    (issues : sm.issue index warp kernel memory = .ok (after, memory')) :
    ∃ changed : Warp,
      after.warps = sm.warps.set index changed ∧
        changed.paths.pending = [] ∧
        memory'.l1Cache.lineSize = lineSize ∧
        after.counters.done work +
            changed.due kernel lineSize work =
          sm.counters.done work + warp.due kernel lineSize work := by
  obtain ⟨_, _, step⟩ := issue_ok found issues
  have counts := issue_counters issues
  generalize after.warps = warps at step ⊢
  generalize after.counters = counters at counts ⊢
  cases step with
  | pastEnd outside =>
      cases counts with
      | pastEnd _ =>
          refine ⟨warp.setCompleted, rfl, onePath, isLineSize, ?_⟩
          rw [Warp.due_pastEnd outside, Warp.due_pastEnd]
          exact outside
      | executed fetched _ =>
          rw [Kernel.fetch?_eq_none_iff.mpr outside] at fetched
          cases fetched
  | executed fetched ran _ =>
      cases counts with
      | pastEnd outside =>
          rw [fetched] at outside
          cases outside
      | executed isFetched hasRun =>
          rw [fetched] at isFetched
          cases isFetched
          rw [ran] at hasRun
          cases hasRun
          obtain ⟨pending, moves⟩ :=
            @Warp.settle_due kernel lineSize work _ _ oblivious _ _ _ _
              ready onePath fetched ran
          refine ⟨_, rfl, pending, ?_, ?_⟩
          · rw [← isLineSize]
            exact (InstructionExecutor.execute_transacts ran).lineSize
          · rw [retire_done isLineSize ran, ← moves]
            omega
  | waits fetched _ barrier _ =>
      exact
        (oblivious.noBarrier _ (List.mem_of_getElem? fetched) barrier).elim
  | released _ fetched _ barrier _ =>
      exact
        (oblivious.noBarrier _ (List.mem_of_getElem? fetched) barrier).elim

section Tick

variable [WarpScheduler σ]
variable {sm after : SM σ}
variable {memory memory' : MemorySystem}

/-- Up to the issue nothing is done and no path changes. -/
theorem timed_due :
    (sm.timed.map (Warp.due kernel lineSize work)).sum =
      sm.due kernel lineSize work := by
  unfold due
  refine congrArg List.sum (Pointwise.map_eq sm.timed_waited ?_)
  exact fun waited =>
    Warp.due_congr waited.core.paths waited.completed_iff

/-- Up to the issue no warp diverges. -/
theorem timed_undiverged
    (undiverged : sm.Undiverged lineSize)
    {warp : Warp}
    (member : warp ∈ sm.timed) :
    warp.paths.pending = [] := by
  obtain ⟨position, found⟩ := List.mem_iff_getElem?.mp member
  obtain ⟨before, foundBefore, waited⟩ :=
    Pointwise.origin sm.timed_waited found
  rw [waited.core.paths]
  exact undiverged.warps before (List.mem_of_getElem? foundBefore)

variable [LawfulWarpScheduler σ]

/-- A tick moves what its instruction adds from the warp to the counters. -/
theorem tick_due
    (oblivious : kernel.Oblivious)
    (undiverged : sm.Undiverged lineSize)
    (sameCache : memory.l1Cache = sm.l1Cache)
    (ran : sm.tick kernel memory = .ok (after, memory')) :
    (∀ warp ∈ after.warps, warp.paths.pending = []) ∧
      memory'.l1Cache.lineSize = lineSize ∧
      after.counters.done work + after.due kernel lineSize work =
        sm.counters.done work + sm.due kernel lineSize work := by
  have isLineSize : memory.l1Cache.lineSize = lineSize := by
    rw [sameCache]
    exact undiverged.lineSize
  have accounted := @done_of_sameWork work _ _ sm.accounted_sameWork
  have waited := @timed_due _ kernel lineSize work _ sm
  have timed (warp : Warp) := @timed_undiverged _ lineSize _ sm undiverged warp
  cases ticking ran with
  | completed done => exact ⟨undiverged.warps, isLineSize, rfl⟩
  | unscheduled _ _ =>
      have stalls := sm.tickStalls_waited
      refine ⟨fun warp member => ?_, isLineSize, ?_⟩
      · obtain ⟨position, found⟩ := List.mem_iff_getElem?.mp member
        obtain ⟨before, foundBefore, waited⟩ :=
          Pointwise.origin stalls found
        rw [waited.core.paths]
        exact undiverged.warps before (List.mem_of_getElem? foundBefore)
      · have sameDue :
            sm.tickStalls.warps.map (Warp.due kernel lineSize work) =
              sm.warps.map (Warp.due kernel lineSize work) :=
          Pointwise.map_eq stalls fun waited =>
            Warp.due_congr waited.core.paths waited.completed_iff
        unfold due
        dsimp only
        rw [sameDue]
        cases work <;> rfl
  | idle uncompleted _ _ =>
      have sameWarps := (idle_ledger sm.accounted).2.1
      refine ⟨?_, isLineSize, ?_⟩
      · rw [sameWarps]
        exact timed
      · rw [Accounting.idle_counters uncompleted, accounted, due,
          sameWarps]
        exact congrArg _ waited
  | issued isRunning isScheduled selected issues =>
      rename_i index warp
      have isTimed : sm.accounted.warps[index]? = some warp :=
        issued?_timed selected
      have ready := issued?_ready selected
      obtain ⟨changed, shape, onePath, lines, moves⟩ :=
        @issue_due _ kernel lineSize work _ _ _ _ _ _ oblivious
          isLineSize isTimed ready (timed warp (List.mem_of_getElem? isTimed))
          issues
      refine ⟨fun other member => ?_, lines, ?_⟩
      · rw [shape] at member
        rcases List.mem_or_eq_of_mem_set member with old | rfl
        · exact timed other old
        · exact onePath
      · have total :=
          @Pointwise.sum_map_set _ (Warp.due kernel lineSize work) _ _ _
            isTimed changed
        rw [← shape] at total
        have before :
            (sm.accounted.warps.map
                (Warp.due kernel lineSize work)).sum =
              sm.due kernel lineSize work :=
          waited
        rw [before] at total
        change after.due kernel lineSize work + _ = _ at total
        omega

end Tick

end SM

/-! ## The work of a GPU -/

namespace SM

variable {σ : Type}

/-- What admission and release leave of a multiprocessor. -/
structure SameDone (before after : SM σ) : Prop where
  work : SameWork before.counters after.counters
  l1Cache : after.l1Cache = before.l1Cache

namespace SameDone

theorem refl (sm : SM σ) : SameDone sm sm :=
  ⟨.refl _, rfl⟩

theorem trans
    {first second third : SM σ}
    (earlier : SameDone first second)
    (later : SameDone second third) :
    SameDone first third :=
  ⟨earlier.work.trans later.work, later.l1Cache.trans earlier.l1Cache⟩

/-- Allocating a block does nothing. -/
theorem allocateBlock
    (sm : SM σ)
    (block : ThreadBlock)
    (req : KernelResourceRequirements) :
    SameDone sm (sm.allocateBlock block req) := by
  have added
      (warps : List Warp)
      (start : SM σ)
      (reached : SameDone sm start) :
      SameDone sm
        (warps.foldl
          (fun sm warp =>
            let added := sm.addWarp warp
            { added with
              counters :=
                added.counters.initializeWarpIssueCount warp.warpId })
          start) := by
    induction warps generalizing start with
    | nil => exact reached
    | cons warp rest inductionHypothesis =>
        exact
          inductionHypothesis _
            (reached.trans ⟨⟨rfl, rfl, rfl, rfl⟩, rfl⟩)
  exact added block.warps _ ⟨⟨rfl, rfl, rfl, rfl⟩, rfl⟩

/-- Admitting blocks does nothing. -/
theorem admitAll
    (req : KernelResourceRequirements)
    (blocks : List ThreadBlock)
    (sm : SM σ) :
    SameDone sm (GPU.admitAll req sm blocks) := by
  induction blocks generalizing sm with
  | nil => exact .refl sm
  | cons block rest inductionHypothesis =>
      exact (allocateBlock sm block req).trans (inductionHypothesis _)

end SameDone

end SM

namespace GPU

variable {σ : Type}
variable {kernel : Kernel}
variable {lineSize : Nat}
variable {work : Work}

/-- What the multiprocessors have counted together. -/
def done (work : Work) (gpu : GPU σ) : Nat :=
  (gpu.sms.map fun sm => sm.counters.done work).sum

/-- What the warps of a GPU and of its pending blocks still have to do. -/
def due
    (kernel : Kernel)
    (lineSize : Nat)
    (work : Work)
    (gpu : GPU σ) :
    Nat :=
  (gpu.warps.map (Warp.due kernel lineSize work)).sum

/-- No warp has diverged, and the L1 lines are of one size. -/
structure Undiverged (lineSize : Nat) (gpu : GPU σ) : Prop where
  warps : ∀ warp ∈ gpu.warps, warp.paths.pending = []
  lineSize : ∀ sm ∈ gpu.sms, sm.l1Cache.lineSize = lineSize

/-- The multiprocessors of such a GPU. -/
theorem Undiverged.sm
    {gpu : GPU σ}
    (undiverged : gpu.Undiverged lineSize)
    {sm : SM σ}
    (member : sm ∈ gpu.sms) :
    sm.Undiverged lineSize where
  warps warp isWarp :=
    undiverged.warps warp
      (List.mem_append_left _ (List.mem_flatMap.mpr ⟨sm, member, isWarp⟩))
  lineSize := undiverged.lineSize sm member

/-- Loading blocks does nothing, beyond what preparation does. -/
theorem loadBlocks_done
    {gpu after : GPU σ}
    {prepare : SM σ → SM σ}
    (prepares : ∀ sm, SM.SameDone sm (prepare sm))
    (lines : ∀ sm ∈ gpu.sms, sm.l1Cache.lineSize = lineSize)
    (warps :
      ∀ warp ∈ warpsOf (gpu.sms.map prepare) gpu.remaining,
        warp.paths.pending = [])
    (ran : gpu.loadBlocks prepare = .ok after) :
    after.Undiverged lineSize ∧ after.done work = gpu.done work := by
  obtain ⟨moved, _, admissions⟩ := loadBlocks_warps ran
  have each :
      List.Forall₂ SM.SameDone gpu.sms after.sms := by
    refine admissions.imp fun before after isAfter => ?_
    obtain ⟨admitted, rfl⟩ := isAfter
    exact (prepares before).trans (.admitAll _ admitted _)
  refine
    ⟨⟨fun warp member => warps warp (moved.mem_iff.mp member),
        fun sm member => ?_⟩, ?_⟩
  · obtain ⟨position, found⟩ := List.mem_iff_getElem?.mp member
    obtain ⟨before, foundBefore, same⟩ := Pointwise.origin each found
    rw [same.l1Cache]
    exact lines before (List.mem_of_getElem? foundBefore)
  · exact
      congrArg List.sum
        (Pointwise.map_eq each fun same => SM.done_of_sameWork same.work)

/-- A refill does nothing, and leaves as much to do. -/
theorem refill_done
    {gpu after : GPU σ}
    (undiverged : gpu.Undiverged lineSize)
    (refills : gpu.refill = .ok after) :
    after.Undiverged lineSize ∧
      after.done work + after.due kernel lineSize work =
        gpu.done work + gpu.due kernel lineSize work := by
  have releases (sm : SM σ) : SM.SameDone sm sm.releaseCompletedBlocks := by
    rw [SM.releaseCompletedBlocks_eq]
    exact ⟨.refl _, rfl⟩
  have kept :
      ∀ warp ∈
          warpsOf (gpu.sms.map SM.releaseCompletedBlocks) gpu.remaining,
        warp.paths.pending = [] := by
    intro warp member
    rcases List.mem_append.mp member with resident | pending
    · obtain ⟨released, isReleased, isWarp⟩ := List.mem_flatMap.mp resident
      obtain ⟨sm, isSm, rfl⟩ := List.mem_map.mp isReleased
      rw [SM.releaseCompletedBlocks_eq] at isWarp
      exact (undiverged.sm isSm).warps warp (List.mem_of_mem_filter isWarp)
    · exact undiverged.warps warp (List.mem_append_right _ pending)
  obtain ⟨undivergedAfter, sameDone⟩ :=
    @loadBlocks_done σ lineSize work gpu after _ releases undiverged.lineSize
      kept refills
  have sameDue :
      after.due kernel lineSize work =
        gpu.due kernel lineSize work :=
    refill_sum (fun _ completed => if_pos completed) refills
  exact ⟨undivergedAfter, by rw [sameDone, sameDue]⟩

/-- A launch only clears the multiprocessors and admits blocks. -/
theorem launch_done
    {grid : Grid}
    {config : SystemConfig}
    {req : KernelResourceRequirements}
    {gpu launched : GPU σ}
    (lines : ∀ sm ∈ gpu.sms, sm.l1Cache.lineSize = lineSize)
    (onePath :
      ∀ block ∈ grid.blocks, ∀ warp ∈ block.warps, warp.simtStack = [])
    (launches : gpu.launchKernel grid config req = .ok launched) :
    launched.Undiverged lineSize ∧ launched.done work = gpu.done work ∧
      launched.due kernel lineSize work =
        ((grid.blocks.flatMap ThreadBlock.warps).map
          (Warp.due kernel lineSize work)).sum := by
  have cleared :
      warpsOf (gpu.sms.map SM.clearWarps) grid.blocks =
        grid.blocks.flatMap ThreadBlock.warps := by
    unfold warpsOf
    rw [List.flatMap_eq_nil_iff.mpr, List.nil_append]
    intro sm member
    obtain ⟨_, _, rfl⟩ := List.mem_map.mp member
    rfl
  have moved :
      launched.warps.Perm
        (warpsOf (gpu.sms.map SM.clearWarps) grid.blocks) :=
    (loadBlocks_warps launches).1
  have paths :
      ∀ warp ∈ warpsOf (gpu.sms.map SM.clearWarps) grid.blocks,
        warp.paths.pending = [] := by
    intro warp member
    rw [cleared] at member
    obtain ⟨block, isBlock, isWarp⟩ := List.mem_flatMap.mp member
    have none := onePath block isBlock warp isWarp
    rw [Warp.paths, none]
    rfl
  obtain ⟨undiverged, sameDone⟩ :=
    @loadBlocks_done σ lineSize work
      { gpu with
        config := config
        req := req
        pendingBlocks := grid.blocks
        currentBlockIdx := 0 }
      launched SM.clearWarps (fun _ => ⟨.refl _, rfl⟩) lines paths launches
  refine ⟨undiverged, sameDone, ?_⟩
  rw [due, (moved.map _).sum_eq, cleared]

section Runs

variable [WarpScheduler σ]
variable [LawfulWarpScheduler σ]

/-- A tick phase moves work from the warps to the counters. -/
theorem tickSms_done
    (oblivious : kernel.Oblivious)
    {memoryConfig : MemoryAccessConfig}
    {sms after : List (SM σ)}
    {l2Cache l2Cache' : Cache}
    {globalMemory globalMemory' : GlobalMemory}
    {allDone : Bool}
    (undiverged : ∀ sm ∈ sms, sm.Undiverged lineSize)
    (ran :
      tickSms kernel memoryConfig sms l2Cache globalMemory =
        .ok (allDone, after, l2Cache', globalMemory')) :
    (∀ sm ∈ after, sm.Undiverged lineSize) ∧
      (after.map fun sm => sm.counters.done work).sum +
          (after.map (SM.due kernel lineSize work)).sum =
        (sms.map fun sm => sm.counters.done work).sum +
          (sms.map (SM.due kernel lineSize work)).sum := by
  induction sms generalizing after l2Cache globalMemory allDone with
  | nil =>
      cases ran
      exact ⟨undiverged, rfl⟩
  | cons sm others inductionHypothesis =>
      rw [List.forall_mem_cons] at undiverged
      unfold tickSms at ran
      split at ran
      · obtain ⟨⟨_, tickedOthers, _, _⟩, later, returned⟩ :=
          except_bind_ok.mp ran
        cases returned
        obtain ⟨undivergedOthers, moved⟩ :=
          inductionHypothesis undiverged.2 later
        simp only [List.forall_mem_cons, List.map_cons, List.sum_cons]
        exact ⟨⟨undiverged.1, undivergedOthers⟩, by omega⟩
      · obtain ⟨⟨tickedSm, _, _⟩, now, next⟩ := except_bind_ok.mp ran
        obtain ⟨⟨_, tickedOthers, _, _⟩, later, returned⟩ :=
          except_bind_ok.mp next
        cases returned
        obtain ⟨⟨ticked, memory'⟩, ticks, returned⟩ :=
          except_bind_ok.mp now
        cases returned
        obtain ⟨undivergedOthers, moved⟩ :=
          inductionHypothesis undiverged.2 later
        obtain ⟨onePath, lines, movedHere⟩ :=
          @SM.tick_due _ kernel lineSize work _ _ _ _ _ _ oblivious
            undiverged.1 rfl ticks
        simp only [List.forall_mem_cons, List.map_cons, List.sum_cons]
        refine ⟨⟨⟨onePath, lines⟩, undivergedOthers⟩, ?_⟩
        change
          (ticked.counters.done work + _) +
              (ticked.due kernel lineSize work + _) =
            _
        omega

/-- An iteration moves work from the warps to the counters. -/
theorem iterate_done
    (oblivious : kernel.Oblivious)
    {gpu after : GPU σ}
    {allDone : Bool}
    (undiverged : gpu.Undiverged lineSize)
    (ran : gpu.iterate kernel = .ok (allDone, after)) :
    after.Undiverged lineSize ∧
      after.done work + after.due kernel lineSize work =
        gpu.done work + gpu.due kernel lineSize work := by
  obtain ⟨refilled, refills, rest⟩ := except_bind_ok.mp ran
  obtain ⟨⟨_, sms, l2Cache, globalMemory⟩, ticks, returned⟩ :=
    except_bind_ok.mp rest
  cases returned
  obtain ⟨undivergedRefilled, sameTotal⟩ :=
    @refill_done σ kernel lineSize work _ _ undiverged refills
  obtain ⟨undivergedSms, moved⟩ :=
    @tickSms_done σ kernel lineSize work _ _ oblivious _ _ _ _ _ _ _ _
      (fun sm member => undivergedRefilled.sm member) ticks
  constructor
  · refine ⟨fun warp member => ?_, fun sm member => ?_⟩
    · rcases List.mem_append.mp member with resident | pending
      · obtain ⟨sm, isSm, isWarp⟩ := List.mem_flatMap.mp resident
        exact (undivergedSms sm isSm).warps warp isWarp
      · exact
          undivergedRefilled.warps warp (List.mem_append_right _ pending)
    · exact (undivergedSms sm member).lineSize
  · rw [← sameTotal]
    unfold done due warps
    rw [sum_warpsOf, sum_warpsOf, ← Nat.add_assoc, ← Nat.add_assoc]
    exact congrArg (· + _) moved

/-- A run moves work from the warps to the counters. -/
theorem runToCompletion_done
    (oblivious : kernel.Oblivious)
    {gpu after : GPU σ}
    {fuel : Nat}
    (undiverged : gpu.Undiverged lineSize)
    (ran : runToCompletion kernel fuel gpu = some (.ok after)) :
    after.done work + after.due kernel lineSize work =
      gpu.done work + gpu.due kernel lineSize work := by
  induction fuel generalizing gpu with
  | zero => cases ran
  | succ fuel inductionHypothesis =>
      unfold runToCompletion at ran
      cases iterates : gpu.iterate kernel with
      | error error =>
          rw [iterates] at ran
          cases ran
      | ok pair =>
          rcases pair with ⟨allDone, middle⟩
          rw [iterates] at ran
          obtain ⟨undivergedMiddle, moved⟩ :=
            @iterate_done σ kernel lineSize work _ _ oblivious _ _ _
              undiverged iterates
          cases allDone with
          | true =>
              cases ran
              exact moved
          | false =>
              exact (inductionHypothesis undivergedMiddle ran).trans moved

omit [LawfulWarpScheduler σ] in
/-- A run ends with nothing left to do. -/
theorem ended_due
    {grid : Grid}
    (wellFormed : grid.WellFormed)
    (unstarted : grid.Unstarted)
    {gpu launched after : GPU σ}
    (nonempty : gpu.sms ≠ [])
    {config : SystemConfig}
    {req : KernelResourceRequirements}
    {fuel : Nat}
    (launches : gpu.launchKernel grid config req = .ok launched)
    (runs : launched.runToCompletion kernel fuel = some (.ok after)) :
    after.due kernel lineSize work = 0 := by
  obtain ⟨_, ended⟩ :=
    run_tracked wellFormed (launch_tracked wellFormed launches) runs
  obtain ⟨nonePending, _⟩ :=
    ended (List.length_pos_of_ne_nil nonempty) unstarted
  have completes :
      @SM.Keeps σ _ kernel (fun _ => True) fun _ => True :=
    ⟨fun _ _ => trivial, fun _ => trivial, fun _ _ _ => trivial⟩
  have completed :=
    (runToCompletion_each completes (fun _ _ => trivial)
      (fun _ _ => trivial) runs).2
  refine List.sum_eq_zero fun count isCount => ?_
  obtain ⟨warp, member, rfl⟩ := List.mem_map.mp isCount
  rw [warps, warpsOf, nonePending, List.flatMap_nil, List.append_nil]
    at member
  obtain ⟨sm, isSm, isWarp⟩ := List.mem_flatMap.mp member
  exact
    if_pos (SM.completed_of_isCompleted (completed sm isSm).2 isWarp)

/--
A run of an oblivious kernel does exactly the work of its warps: on every GPU
whose L1 lines have a size, under every policy, whatever the caches and the
memories hold, it retires every instruction of every warp once, and counts as
many memory instructions and transactions as the lanes of the grid make with
the registers they start with.
-/
theorem oblivious_work
    {grid : Grid}
    (wellFormed : grid.WellFormed)
    (unstarted : grid.Unstarted)
    (oblivious : kernel.Oblivious)
    (onePath :
      ∀ block ∈ grid.blocks, ∀ warp ∈ block.warps, warp.simtStack = [])
    {gpu after : GPU σ}
    (nonempty : gpu.sms ≠ [])
    (lines : ∀ sm ∈ gpu.sms, sm.l1Cache.lineSize = lineSize)
    {config : SystemConfig}
    {req : KernelResourceRequirements}
    {fuel : Nat}
    (ran : gpu.launchAndRun grid config req kernel fuel = some (.ok after)) :
    ∀ work,
      after.done work =
        gpu.done work +
          ((grid.blocks.flatMap ThreadBlock.warps).map
            (Warp.due kernel lineSize work)).sum := by
  intro work
  obtain ⟨launched, launches, runs⟩ := launchAndRun_ok ran
  obtain ⟨undiverged, sameDone, isDue⟩ :=
    @launch_done _ kernel lineSize work _ _ _ _ _ lines onePath launches
  have moved := @runToCompletion_done σ kernel lineSize work _ _ oblivious _ _
    _ undiverged runs
  rw [ended_due wellFormed unstarted nonempty launches runs, Nat.add_zero,
    sameDone, isDue] at moved
  exact moved

end Runs

/-- Two blocks retire two instructions each, one of them a memory access. -/
theorem oblivious_work_one_at_a_time :
    ∃ after,
      (single narrowConfig).launchAndRun ⟨[.narrow 4 1, .narrow 2 1]⟩
            narrowConfig ⟨32, 0⟩ addFive 20 =
          some (.ok after) ∧
        after.done .instructions = 4 ∧ after.done .memoryTransactions = 2 := by
  obtain ⟨after, ran⟩ :
      ∃ after,
        (single narrowConfig).launchAndRun ⟨[.narrow 4 1, .narrow 2 1]⟩
            narrowConfig ⟨32, 0⟩ addFive 20 =
          some (.ok after) := by
    refine returns_of_any ?_
    decide +kernel
  have unstarted : Grid.Unstarted ⟨[.narrow 4 1, .narrow 2 1]⟩ := by
    unfold Grid.Unstarted
    decide
  have onePath :
      ∀ block ∈ [ThreadBlock.narrow 4 1, .narrow 2 1],
        ∀ warp ∈ block.warps, warp.simtStack = [] := by
    decide
  have lines : ∀ sm ∈ (single narrowConfig).sms, sm.l1Cache.lineSize = 1 := by
    intro sm member
    rw [List.mem_singleton.mp member]
    rfl
  have works :=
    oblivious_work (narrow_wellFormed [4, 2] (by decide)) unstarted
      ⟨by decide, by decide +kernel⟩ onePath (List.cons_ne_nil _ _) lines ran
  refine
    ⟨after, ran, (works .instructions).trans ?_,
      (works .memoryTransactions).trans ?_⟩
  · decide +kernel
  · decide +kernel

end GPU

end SimSm
