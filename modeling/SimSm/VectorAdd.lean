import SimSm.Completion
import SimSm.GridPartition

namespace SimSm

/-!
# The vector addition

A thread of the vector addition adds the cells from its own on, one after the
other, so neighbouring threads write the same cells.  They write the same sums,
and the cells that are read are written by nobody.
-/

open Interleaving Outcome

namespace Benchmarks

/-- Every element of a grid is a thread of a block. -/
theorem thread_of_element
    {numElements blockSize globalId : Nat}
    (noWrap : numElements + blockSize ≤ 2 ^ 64)
    (positive : 0 < blockSize)
    (inside : globalId < numElements) :
    ∃ block < numBlocks numElements blockSize,
      ∃ localId < threadsInBlock numElements blockSize block,
        block * blockSize + localId = globalId := by
  have split := Nat.div_add_mod' globalId blockSize
  have small := Nat.mod_lt globalId positive
  refine ⟨globalId / blockSize, ?_, globalId % blockSize, ?_, split⟩
  · rw [numBlocks_eq_count noWrap positive]
    refine Nat.div_lt_of_lt_mul ?_
    rw [Nat.mul_comm]
    exact inside.trans_le (Chunks.le_count_mul positive numElements)
  · unfold threadsInBlock
    omega

end Benchmarks

namespace VectorAdd

open Benchmarks

/-- The bytes from the first cell of a thread to that of its neighbour. -/
def stride (strided : Bool) : Nat :=
  if strided then 32 else 4

/-- The sum of the cells at an offset. -/
def sumAt (data : Nat → Word) (offset : Nat) : Word :=
  data offset + data (10000 + offset)

/-- The cells of the sums, and what they are to hold. -/
def target (data : Nat → Word) (address : Nat) : Option Word :=
  if 20000 ≤ address ∧ address < 30000 then
    some (sumAt data (address - 20000))
  else
    none

/-- The registers of a thread name its three cells. -/
structure Pointers (offset : Nat) (lane : LaneState) : Prop where
  first : lane.read 0 = BitVec.ofNat 32 offset
  second : lane.read 1 = BitVec.ofNat 32 (10000 + offset)
  sum : lane.read 2 = BitVec.ofNat 32 (20000 + offset)

/-- What a thread touches in one iteration. -/
def turnTouched (data : Nat → Word) (offset : Nat) : List (Access Nat Word) :=
  [.load offset, .load (10000 + offset),
    .store (20000 + offset) (sumAt data offset)]

/-- A thread that is alone, after some iterations. -/
structure After
    (data : Nat → Word)
    (offset turns : Nat)
    (own : OwnLane) : Prop where
  pointers : Pointers offset own.lane
  touched :
    own.touched =
      (List.range turns).flatMap fun i => turnTouched data (offset + i * 4)
  inputs : ∀ address < 20000, own.memory address = data address

section Turns

variable {data : Nat → Word}
variable {offset turns : Nat}
variable {own : OwnLane}
variable {lane : LaneState}

/-- Registers above the pointers may be written. -/
theorem Pointers.write
    {register : Nat}
    (pointers : Pointers offset lane)
    (above : 2 < register ∧ register < 32)
    (value : Word) :
    Pointers offset (lane.write register value) := by
  have keeps (pointer : Nat) (small : pointer ≤ 2) :
      (lane.write register value).read pointer = lane.read pointer :=
    LaneState.read_write_of_ne (by omega) ⟨by omega, by omega⟩ (by omega)
      value lane
  exact
    ⟨(keeps 0 (by decide)).trans pointers.first,
      (keeps 1 (by decide)).trans pointers.second,
      (keeps 2 (by decide)).trans pointers.sum⟩

/-- One iteration adds the cells at the next offset. -/
theorem After.turn
    (after : After data offset turns own)
    (inside : offset + turns * 4 < 10000) :
    After data offset (turns + 1)
      (own.executeAll (vectorAddTurn (turns * 4 : Nat))) := by
  obtain ⟨pointers, touched, inputs⟩ := after
  have isFirst
      {lane : LaneState}
      (pointers : Pointers offset lane) :
      lane.address 0 ⟨.load, 3, 0, -1, (turns * 4 : Nat)⟩ =
        offset + turns * 4 :=
    LaneState.address_offset (by decide) pointers.first rfl (by omega)
      (by omega)
  have isSecond
      {lane : LaneState}
      (pointers : Pointers offset lane) :
      lane.address 1 ⟨.load, 4, 1, -1, (turns * 4 : Nat)⟩ =
        10000 + (offset + turns * 4) := by
    rw [← Nat.add_assoc]
    exact
      LaneState.address_offset (by decide) pointers.second rfl (by omega)
        (by omega)
  have isSum
      {lane : LaneState}
      (pointers : Pointers offset lane) :
      lane.address 2 ⟨.store, 2, 5, 2, (turns * 4 : Nat)⟩ =
        20000 + (offset + turns * 4) := by
    rw [← Nat.add_assoc]
    exact
      LaneState.address_offset (by decide) pointers.sum rfl (by omega)
        (by omega)
  let cell := offset + turns * 4
  let lane1 := own.lane.write 3 (data cell)
  let lane2 := lane1.write 4 (data (10000 + cell))
  let lane3 := lane2.write 5 (lane2.read 3 + lane2.read 4)
  have pointers1 : Pointers offset lane1 := pointers.write (by decide) _
  have pointers2 : Pointers offset lane2 := pointers1.write (by decide) _
  have pointers3 : Pointers offset lane3 := pointers2.write (by decide) _
  have loaded :
      own.execute ⟨.load, 3, 0, -1, (turns * 4 : Nat)⟩ =
        ⟨lane1, own.memory, own.touched ++ [.load cell]⟩ := by
    change
      (⟨own.lane.write 3 (own.memory (own.lane.address 0 _)), own.memory,
          own.touched ++ [.load (own.lane.address 0 _)]⟩ : OwnLane) = _
    rw [isFirst pointers, inputs _ (by omega)]
  have loadedToo :
      OwnLane.execute ⟨.load, 4, 1, -1, (turns * 4 : Nat)⟩
          ⟨lane1, own.memory, own.touched ++ [.load cell]⟩ =
        ⟨lane2, own.memory,
          own.touched ++ [.load cell] ++ [.load (10000 + cell)]⟩ := by
    change
      (⟨lane1.write 4 (own.memory (lane1.address 1 _)), own.memory,
          own.touched ++ [.load cell] ++ [.load (lane1.address 1 _)]⟩ :
        OwnLane) = _
    rw [isSecond pointers1, inputs _ (by omega)]
  have isSumOf : lane3.read 5 = sumAt data cell := by
    have first : lane2.read 3 = data cell := by
      rw [LaneState.read_write_of_ne (by decide) ⟨by decide, by decide⟩
        (by decide), LaneState.read_write ⟨by decide, by decide⟩
        ⟨by decide, by decide⟩, if_pos rfl]
    have second : lane2.read 4 = data (10000 + cell) := by
      rw [LaneState.read_write ⟨by decide, by decide⟩
        ⟨by decide, by decide⟩, if_pos rfl]
    rw [LaneState.read_write ⟨by decide, by decide⟩
      ⟨by decide, by decide⟩, if_pos rfl, first, second]
    rfl
  have stored (touched : List (Access Nat Word)) :
      OwnLane.execute ⟨.store, 2, 5, 2, (turns * 4 : Nat)⟩
          ⟨lane3, own.memory, touched⟩ =
        ⟨lane3,
          Function.update own.memory (20000 + cell) (sumAt data cell),
          touched ++ [.store (20000 + cell) (sumAt data cell)]⟩ := by
    change
      (⟨lane3,
          Function.update own.memory (lane3.address 2 _) (lane3.read 5),
          touched ++ [.store (lane3.address 2 _) (lane3.read 5)]⟩ :
        OwnLane) = _
    rw [isSum pointers3, isSumOf]
  rw [vectorAddTurn, OwnLane.executeAll_cons, loaded,
    OwnLane.executeAll_cons, loadedToo, OwnLane.executeAll_cons,
    OwnLane.execute_add, OwnLane.executeAll_cons, stored,
    OwnLane.executeAll_nil]
  refine ⟨pointers3, ?_, fun address below => ?_⟩
  · rw [List.range_succ, List.flatMap_append, ← touched,
      List.flatMap_singleton, List.append_assoc, List.append_assoc]
    rfl
  · dsimp only
    rw [Function.update_of_ne (by omega)]
    exact inputs address below

/-- All iterations one after the other. -/
theorem after_turns
    (pointers : Pointers offset lane)
    (inside : offset + turns * 4 ≤ 10000) :
    After data offset turns
      (OwnLane.executeAll (vectorAddInstructions turns) ⟨lane, data, []⟩) := by
  induction turns with
  | zero => exact ⟨pointers, rfl, fun _ _ => rfl⟩
  | succ turns inductionHypothesis =>
      rw [vectorAddInstructions, List.range_succ, List.flatMap_append,
        OwnLane.executeAll_append, List.flatMap_singleton]
      exact (inductionHypothesis (by omega)).turn (by omega)

/-- The accesses of a thread keep to the agreement on the sums. -/
theorem agrees_turnTouched
    {scope : Nat → Prop}
    (inScope : ∀ address < 30000, scope address)
    (inside : offset < 10000) :
    ∀ access ∈ turnTouched data offset,
      Agrees (target data) scope access := by
  have unwritten {address : Nat} (below : address < 20000) :
      target data address = none :=
    if_neg (by omega)
  intro access member
  simp only [turnTouched, List.mem_cons, List.not_mem_nil, or_false]
    at member
  rcases member with rfl | rfl | rfl
  · exact ⟨inScope _ (by omega), unwritten (by omega)⟩
  · exact ⟨inScope _ (by omega), unwritten (by omega)⟩
  · refine ⟨inScope _ (by omega), ?_⟩
    rw [target, if_pos (by omega), Nat.add_sub_cancel_left]

end Turns

section Grid

variable {numThreads blockSize warpSize iterations : Nat}
variable {strided : Bool}
variable {grid : Grid}
variable {data : Nat → Word}

/-- The instructions of the kernel are loads, stores and additions. -/
theorem straight_instructions
    {inst : Instruction}
    (member : inst ∈ vectorAddInstructions iterations) :
    inst.Straight := by
  obtain ⟨i, _, isTurn⟩ := List.mem_flatMap.mp member
  simp only [vectorAddTurn, add, List.mem_cons, List.not_mem_nil, or_false]
    at isTurn
  rcases isTurn with rfl | rfl | rfl | rfl <;>
    exact ⟨rfl, Opcode.noConfusion⟩

/-- Every instruction of the kernel is straight. -/
theorem does
    (isInt : iterations < 2 ^ 31) :
    OwnPaths.Does (generateVectorAddKernel iterations isInt) 0
      (generateVectorAddKernel iterations isInt).size (fun _ => True)
      (OwnLane.executeAll (vectorAddInstructions iterations)) := by
  have straight :=
    @OwnPaths.Does.straight (generateVectorAddKernel iterations isInt) 0
      (fun _ => True) (vectorAddInstructions iterations)
      (Kernel.holds_instructions _) fun _ => straight_instructions
  rwa [Nat.zero_add] at straight

/-- A thread of the grid starts with its three cells in its registers. -/
theorem builtLane_pointers
    (block localId : Nat) :
    Pointers ((block * blockSize + localId) * stride strided)
      (builtLane warpSize (benchmarkThread strided blockSize warpSize block)
        localId) := by
  obtain ⟨thread, built, _⟩ :=
    benchmarkThread_succeeds strided blockSize warpSize block
      (localId / warpSize) (localId % warpSize)
  rw [builtLane, built]
  change Pointers _ thread.lane
  unfold benchmarkThread at built
  dsimp only at built
  rw [Nat.div_add_mod'] at built
  have reads
      {index value : Nat}
      (member :
        (index, value) ∈
          [(0,
              0 + (block * blockSize + localId) *
                if strided = true then 32 else 4),
            (1,
              10000 + (block * blockSize + localId) *
                if strided = true then 32 else 4),
            (2,
              20000 + (block * blockSize + localId) *
                if strided = true then 32 else 4)]) :
      thread.lane.read index = BitVec.ofNat 32 value :=
    @writeRegisters_read _ _ _ [0, 1, 2] rfl (by decide) (by decide) built _
      _ member
  refine ⟨?_, reads (by simp [stride]), reads (by simp [stride])⟩
  exact reads (by simp [stride])

/-- What a thread of the grid touches alone. -/
theorem aloneAtEnd_touched
    {block localId : Nat}
    (inside :
      (block * blockSize + localId) * stride strided + iterations * 4 ≤
        10000) :
    (GPU.aloneAtEnd warpSize (benchmarkThread strided blockSize warpSize)
        (OwnLane.executeAll (vectorAddInstructions iterations)) data block
        localId).touched =
      (List.range iterations).flatMap fun i =>
        turnTouched data
          ((block * blockSize + localId) * stride strided + i * 4) :=
  (after_turns (builtLane_pointers block localId) inside).touched

/-- The last cell of every thread is before the second vector. -/
theorem inside_of_apart
    (apart : (numThreads - 1) * stride strided + iterations * 4 ≤ 10000)
    {globalId : Nat}
    (isThread : globalId < numThreads) :
    globalId * stride strided + iterations * 4 ≤ 10000 :=
  (Nat.add_le_add_right
    (Nat.mul_le_mul_right _ (Nat.le_sub_one_of_lt isThread)) _).trans apart

/-- The instructions of the kernel have registers that exist. -/
theorem wellFormed
    (isInt : iterations < 2 ^ 31) :
    (generateVectorAddKernel iterations isInt).WellFormed := by
  intro inst member
  refine ⟨?_, (straight_instructions member).1⟩
  obtain ⟨i, _, isTurn⟩ := List.mem_flatMap.mp member
  simp only [vectorAddTurn, add, List.mem_cons, List.not_mem_nil, or_false]
    at isTurn
  have register (small : Nat) (isSmall : small < 32) :
      RegisterOperand (small : Int) :=
    ⟨Int.natCast_nonneg _, by omega⟩
  rcases isTurn with rfl | rfl | rfl | rfl
  · exact ⟨register 3 (by decide), Or.inr (register 0 (by decide))⟩
  · exact ⟨register 4 (by decide), Or.inr (register 1 (by decide))⟩
  · exact Or.inl (by decide)
  · exact ⟨register 5 (by decide), Or.inr (register 2 (by decide))⟩

/-- All threads keep to the agreement on the sums. -/
theorem threadsKeep
    {scope : Nat → Prop}
    (inScope : ∀ address < 30000, scope address)
    (apart : (numThreads - 1) * stride strided + iterations * 4 ≤ 10000) :
    GPU.ThreadsKeep numThreads blockSize warpSize
      (benchmarkThread strided blockSize warpSize)
      (OwnLane.executeAll (vectorAddInstructions iterations)) data
      (target data) scope := by
  intro block _ localId isThread access member
  have inside := inside_of_apart apart (element_of_thread isThread).2
  rw [aloneAtEnd_touched inside] at member
  obtain ⟨i, isTurn, touched⟩ := List.mem_flatMap.mp member
  have isIteration := List.mem_range.mp isTurn
  exact agrees_turnTouched inScope (by omega) access touched

/--
On every GPU, under every policy, with every distribution of the threads, a run
of the vector addition leaves the sums of the cells at the threads' offsets and
nothing else, as long as the two vectors and the sums do not overlap.
-/
theorem vectorAdd_correct
    {σ : Type}
    [WarpScheduler σ]
    [LawfulWarpScheduler σ]
    (someThreads : 0 < blockSize)
    (positive : 0 < warpSize)
    (narrow : warpSize ≤ 32)
    (noWrap : numThreads + blockSize ≤ 2 ^ 64)
    (isInt : iterations < 2 ^ 31)
    (apart : (numThreads - 1) * stride strided + iterations * 4 ≤ 10000)
    (built :
      buildBenchmarkGrid numThreads blockSize warpSize strided = .ok grid)
    {gpu after : GPU σ}
    (nonempty : gpu.sms ≠ [])
    {config : SystemConfig}
    {req : KernelResourceRequirements}
    {fuel : Nat}
    (ran :
      gpu.launchAndRun grid config req
          (generateVectorAddKernel iterations isInt) fuel =
        some (.ok after)) :
    (∀ globalId < numThreads,
      ∀ i < iterations,
        after.globalMemory.data
            (20000 + (globalId * stride strided + i * 4)) =
          sumAt gpu.globalMemory.data
            (globalId * stride strided + i * 4)) ∧
      ∀ address,
        (∀ globalId < numThreads,
          ∀ i < iterations,
            address ≠ 20000 + (globalId * stride strided + i * 4)) →
        after.globalMemory.data address = gpu.globalMemory.data address := by
  have inThreads
      {block localId : Nat}
      (isThread : localId < threadsInBlock numThreads blockSize block) :=
    (element_of_thread isThread).2
  have final (address : Nat) :=
    GPU.agreeing_threads someThreads positive narrow built
      (fun _ _ _ _ isBuilt => writeRegisters_blockId isBuilt)
      (fun _ member => (straight_instructions member).2) (does isInt)
      (threadsKeep
        (fun _ small => isGlobal_iff.mpr (small.trans (by decide))) apart)
      nonempty ran address
  have stores
      {block localId address : Nat}
      (isThread : localId < threadsInBlock numThreads blockSize block) :
      Stored
          (GPU.aloneAtEnd warpSize
            (benchmarkThread strided blockSize warpSize)
            (OwnLane.executeAll (vectorAddInstructions iterations))
            gpu.globalMemory.data block localId).touched
          address ↔
        ∃ i < iterations,
          address =
            20000 +
              ((block * blockSize + localId) * stride strided + i * 4) := by
    rw [aloneAtEnd_touched (inside_of_apart apart (inThreads isThread))]
    simp [Stored, turnTouched]
  constructor
  · intro globalId isGlobalId i isIteration
    obtain ⟨block, isBlock, localId, isThread, rfl⟩ :=
      thread_of_element noWrap someThreads isGlobalId
    have inside := inside_of_apart apart isGlobalId
    have written :=
      (final
          (20000 +
            ((block * blockSize + localId) * stride strided + i * 4))).1
        ⟨block, isBlock, localId, isThread,
          (stores isThread).mpr ⟨i, isIteration, rfl⟩⟩
    rw [target, if_pos (by omega), Nat.add_sub_cancel_left] at written
    exact (Option.some.inj written).symm
  · intro address nobody
    refine (final address).2 fun block _ localId isThread stored => ?_
    obtain ⟨i, isIteration, rfl⟩ := (stores isThread).mp stored
    exact nobody _ (inThreads isThread) i isIteration rfl

/--
The vector addition runs to its end and adds: with room for every block on an
empty multiprocessor and thirty thousand cells of global memory, it neither
throws nor goes on for ever, and leaves exactly the sums.
-/
theorem vectorAdd_completes
    (someThreads : 0 < blockSize)
    (positive : 0 < warpSize)
    (narrow : warpSize ≤ 32)
    (few : blockSize ≤ 2 ^ 31)
    (noWrap : numThreads + blockSize ≤ 2 ^ 64)
    (isInt : iterations < 2 ^ 31)
    (apart : (numThreads - 1) * stride strided + iterations * 4 ≤ 10000)
    (built :
      buildBenchmarkGrid numThreads blockSize warpSize strided = .ok grid)
    {gpu : GPU Scheduler}
    (nonempty : gpu.sms ≠ [])
    (scheduled :
      ∀ sm ∈ gpu.sms,
        ∃ scheduler, sm.scheduler = some scheduler ∧ scheduler.Usable)
    (inUse : gpu.CachesInUse)
    (large : 30000 ≤ gpu.globalMemory.size)
    {config : SystemConfig}
    {req : KernelResourceRequirements}
    (fits : ∀ block ∈ grid.blocks, SM.fitsEmpty block config req = true)
    {fuel : Nat}
    (enough :
      grid.iterationBound (generateVectorAddKernel iterations isInt) config <
        fuel) :
    ∃ after,
      gpu.launchAndRun grid config req
            (generateVectorAddKernel iterations isInt) fuel =
          some (.ok after) ∧
        (∀ globalId < numThreads,
          ∀ i < iterations,
            after.globalMemory.data
                (20000 + (globalId * stride strided + i * 4)) =
              sumAt gpu.globalMemory.data
                (globalId * stride strided + i * 4)) ∧
        ∀ address,
          (∀ globalId < numThreads,
            ∀ i < iterations,
              address ≠ 20000 + (globalId * stride strided + i * 4)) →
          after.globalMemory.data address =
            gpu.globalMemory.data address := by
  have inMemory (address : Nat) (small : address < 30000) :
      InMemory gpu.globalMemory.size address :=
    ⟨isGlobal_iff.mpr (small.trans (by decide)), small.trans_le large⟩
  obtain ⟨after, ran⟩ :=
    GPU.agreeing_threads_complete someThreads positive narrow few built
      (fun _ _ _ _ isBuilt => writeRegisters_blockId isBuilt)
      (wellFormed isInt) (does isInt) (threadsKeep inMemory apart) scheduled
      inUse fits enough
  exact
    ⟨after, ran,
      vectorAdd_correct someThreads positive narrow noWrap isInt apart built
        nonempty ran⟩

/-- Two threads, each of which is a warp. -/
def twoWarps : Grid :=
  (buildBenchmarkGrid 2 2 1 false).toOption.getD ⟨[]⟩

/-- A multiprocessor over a memory in which every cell holds its address. -/
def numbered : GPU Scheduler :=
  { GPU.single GPU.roomyConfig with
    globalMemory := ⟨30000, fun address => BitVec.ofNat 32 address⟩ }

/-- Both threads write the second sum. -/
theorem vectorAdd_completes_two_warps :
    ∃ after,
      numbered.launchAndRun twoWarps GPU.roomyConfig ⟨1, 0⟩
            (generateVectorAddKernel 2 (by decide))
            (twoWarps.iterationBound (generateVectorAddKernel 2 (by decide))
                GPU.roomyConfig +
              1) =
          some (.ok after) ∧
        after.globalMemory.data (20000 + (1 * stride false + 0 * 4)) =
          sumAt numbered.globalMemory.data (1 * stride false + 0 * 4) := by
  have built : buildBenchmarkGrid 2 2 1 false = .ok twoWarps :=
    except_ok_getD (by decide +kernel)
  have fits :
      twoWarps.blocks.all
          (fun block => SM.fitsEmpty block GPU.roomyConfig ⟨1, 0⟩) =
        true := by
    decide +kernel
  obtain ⟨after, ran, sums, _⟩ :=
    @vectorAdd_completes 2 2 1 2 false twoWarps (by decide) (by decide)
      (by decide) (by decide) (by decide) (by decide) (by decide) built
      numbered (List.cons_ne_nil _ _)
      (fun sm member => by
        rw [List.mem_singleton.mp member]
        exact ⟨_, rfl, trivial⟩)
      ⟨fun sm member => by
        rw [List.mem_singleton.mp member]
        exact (MemorySystem.minimal_inUse 1).l1Cache,
        (MemorySystem.minimal_inUse 1).l2Cache⟩
      (Nat.le_refl _) GPU.roomyConfig ⟨1, 0⟩
      (fun block member => List.all_eq_true.mp fits block member) _
      (Nat.lt_succ_self _)
  exact ⟨after, ran, sums 1 (by decide) 0 (by decide)⟩

end Grid

end VectorAdd

end SimSm
