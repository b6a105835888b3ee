import SimSm.Histogram

namespace SimSm

/-!
# Runs of the histogram benchmark

A block goes through three phases: it zeroes its bins, counts its elements and
writes the bins out.  What a run leaves in the output cells follows phase by
phase, and with it when the benchmark computes the histogram.
-/

open Interleaving Outcome Benchmarks

namespace Histogram

/-- The prolog sets the two registers that hold constants. -/
theorem Registers.prolog
    {numElements blockSize numBins block localId : Nat}
    {own : OwnLane}
    (registers :
      Registers numElements blockSize numBins block localId own.lane) :
    Ready numElements blockSize numBins block localId
        (own.executeAll [mov 19 0, mov 12 4]).lane ∧
      (own.executeAll [mov 19 0, mov 12 4]).memory = own.memory ∧
      (own.executeAll [mov 19 0, mov 12 4]).touched = own.touched := by
  have same
      (register : Int)
      (valid : RegisterOperand register)
      (notFour : register ≠ 12)
      (notZero : register ≠ 19) :
      (own.executeAll [mov 19 0, mov 12 4]).lane.read register =
        own.lane.read register := by
    refine OwnLane.read_executeAll valid (fun inst member => ?_) own
    have written : inst.dst = 19 ∨ inst.dst = 12 := by
      revert inst
      decide
    omega
  refine
    ⟨⟨registers.congr fun register valid _ notFour notZero =>
        same register valid notFour notZero, ?_, ?_⟩, ?_⟩
  · simp (disch := decide) only [OwnLane.executeAll_cons,
      OwnLane.executeAll_nil, OwnLane.execute_mov, LaneState.read_write,
      if_pos, if_neg, Int.reduceEq]
    rfl
  · simp (disch := decide) only [OwnLane.executeAll_cons,
      OwnLane.executeAll_nil, OwnLane.execute_mov, LaneState.read_write,
      if_pos]
    rfl
  · simp only [OwnLane.executeAll_cons, OwnLane.executeAll_nil,
      OwnLane.execute_mov, and_self]

/-! ## One block -/

/-- What a block of the histogram grid runs with. -/
structure Setting
    (numElements blockSize numBins warpSize iters block : Nat)
    (input : Nat → Nat) :
    Prop where
  someThreads : 0 < blockSize
  someBins : 0 < numBins
  someLanes : 0 < warpSize
  narrow : warpSize ≤ 32
  small : iters ≤ 8
  covers : numBins ≤ iters * blockSize
  fits :
    numElements * 4 + block * numBins * 4 + numBins * 4 ≤
      MemorySystem.sharedMemBase
  inBins : ∀ index < numElements, input index < numBins

/-- From a pc on, the block leaves its counts in its output cells. -/
abbrev Completes
    (kernel : Kernel)
    (numElements blockSize numBins warpSize block : Nat)
    (input : Nat → Nat)
    (pc : Nat)
    (lane : Nat → LaneState)
    (memory : Nat → Word) :
    Prop :=
  Bulk kernel
    (warpCount warpSize (threadsInBlock numElements blockSize block))
    (InScope (writer numElements numBins) block)
    (Mine (writer numElements numBins) block)
    (goal numElements blockSize numBins input)
    (abreast warpSize (threadsInBlock numElements blockSize block) pc lane)
    memory

section Phases

variable {numElements blockSize numBins warpSize iters block : Nat}
variable {input : Nat → Nat}
variable {kernel : Kernel}
variable {lane : Nat → LaneState}
variable {memory : Nat → Word}

/-- What a block may use without owning it is below shared memory. -/
theorem below_of_notMine
    {address : Nat}
    (inScope : InScope (writer numElements numBins) block address)
    (notMine : ¬ Mine (writer numElements numBins) block address) :
    address < MemorySystem.sharedMemBase ∧ address < numElements * 4 := by
  rw [writer_eq] at inScope notMine
  exact input_of_notMine inScope notMine

/-- A bin is served by the thread that its number names. -/
theorem server_eq
    {localId bin iter : Nat}
    (isThread : localId < blockSize)
    (serves : bin = localId + iter * blockSize) :
    bin % blockSize = localId := by
  rw [serves, Nat.add_mul_mod_self_right, Nat.mod_eq_of_lt isThread]

/-- A bin is zeroed by the thread that serves it. -/
theorem useZero_sharedBin
    {numThreads bin : Nat}
    (isBin : bin < numBins)
    (served : bin % blockSize < numThreads) :
    useZero blockSize numBins numThreads (sharedBin numBins block bin) =
      .owned (bin % blockSize) := by
  have above :
      MemorySystem.sharedMemBase ≤ sharedBin numBins block bin := by
    unfold sharedBin
    omega
  have number :
      (sharedBin numBins block bin - MemorySystem.sharedMemBase) %
            (numBins * 4) / 4 =
        bin :=
    index_of_cell isBin
  unfold useZero
  simp only [number, above, served, and_self, if_true]

/-- A bin is written out by the thread that serves it. -/
theorem useWrite_outputCell
    {numThreads bin : Nat}
    (fits :
      numElements * 4 + block * numBins * 4 + numBins * 4 ≤
        MemorySystem.sharedMemBase)
    (isBin : bin < numBins)
    (served : bin % blockSize < numThreads) :
    useWrite numElements blockSize numBins numThreads
        (outputCell numElements numBins block bin) =
      .owned (bin % blockSize) := by
  have below := small_outputCell fits isBin
  have above :
      numElements * 4 ≤ outputCell numElements numBins block bin := by
    unfold outputCell
    omega
  have aligned :
      (outputCell numElements numBins block bin - numElements * 4) % 4 =
        0 := by
    unfold outputCell
    omega
  have number :
      (outputCell numElements numBins block bin - numElements * 4) %
            (numBins * 4) / 4 =
        bin :=
    index_of_cell isBin
  unfold useWrite
  simp only [number, above, below, aligned, served, and_self, if_true]

/-- No bin is written out to an address of shared memory. -/
theorem useWrite_shared
    {numThreads address : Nat}
    (isShared : MemorySystem.sharedMemBase ≤ address) :
    useWrite numElements blockSize numBins numThreads address =
      .readOnly := by
  unfold useWrite
  exact if_neg fun isOutput => Nat.not_lt.mpr isShared isOutput.2.1

/-- An aligned output cell of a block is that of one of its bins. -/
theorem eq_outputCell
    {address : Nat}
    (someBins : 0 < numBins)
    (above : numElements * 4 ≤ address)
    (ofBlock : (address - numElements * 4) / (numBins * 4) = block)
    (aligned : (address - numElements * 4) % 4 = 0) :
    ∃ bin < numBins,
      address = outputCell numElements numBins block bin ∧
        (address - numElements * 4) % (numBins * 4) / 4 = bin := by
  have split := Nat.div_add_mod (address - numElements * 4) (numBins * 4)
  have inside :
      (address - numElements * 4) % (numBins * 4) < numBins * 4 :=
    Nat.mod_lt _ (by omega)
  have alignedRest :
      (address - numElements * 4) % (numBins * 4) % 4 = 0 := by
    rw [Nat.mod_mul_left_mod, aligned]
  have cells : numBins * 4 * block = block * numBins * 4 := by
    rw [Nat.mul_comm, Nat.mul_assoc]
  rw [ofBlock, cells] at split
  refine ⟨_, ?_, ?_, rfl⟩
  · omega
  · unfold outputCell
    omega

/-- The ones of the threads with an element of a bin are its count. -/
theorem sum_ones
    (isCounted : Nat → Bool)
    (numThreads : Nat) :
    ∑ localId ∈ Finset.range numThreads,
        (if isCounted localId then (1 : Word) else 0) =
      BitVec.ofNat 32 ((List.range numThreads).countP isCounted) := by
  induction numThreads with
  | zero => rfl
  | succ numThreads inductionHypothesis =>
      rw [Finset.sum_range_succ, inductionHypothesis, List.range_succ,
        List.countP_append, BitVec.ofNat_add, List.countP_singleton]
      split
      · rfl
      · rfl

namespace Setting

/-- The elements are below shared memory. -/
theorem below
    (setting :
      Setting numElements blockSize numBins warpSize iters block input) :
    numElements * 4 ≤ MemorySystem.sharedMemBase := by
  have fits := setting.fits
  omega

/-- The third phase: the bins are written out. -/
theorem writesOut
    (setting :
      Setting numElements blockSize numBins warpSize iters block input)
    (laid : Laid kernel blockSize iters)
    (ready :
      ∀ localId < threadsInBlock numElements blockSize block,
        Ready numElements blockSize numBins block localId (lane localId))
    (counted :
      ∀ bin < numBins,
        memory (sharedBin numBins block bin) =
          BitVec.ofNat 32
            (blockCount numElements blockSize input block bin))
    (zeroed :
      ∀ address,
        numElements * 4 ≤ address →
        address < MemorySystem.sharedMemBase →
        InScope (writer numElements numBins) block address →
        memory address = 0) :
    Completes kernel numElements blockSize numBins warpSize block input
      (14 + 9 * iters) lane memory := by
  have written
      {localId : Nat}
      (inside : localId < threadsInBlock numElements blockSize block) :=
    @writeAll_writtenOut numElements blockSize numBins block localId iters
      ⟨lane localId, memory, []⟩ setting.someThreads
      (ready localId inside) setting.small setting.fits
  refine
    @Bulk.toEnd kernel warpSize _ _ _ _ _ _
      (useWrite numElements blockSize numBins
        (threadsInBlock numElements blockSize block))
      _ _ lane setting.someLanes setting.narrow laid.writes
      (fun _ _ => trivial) ?_ ?_ ?_
  · intro localId inside access accessed
    obtain ⟨isThread, _⟩ := element_of_thread inside
    rcases (written inside).touched access accessed with
      none | ⟨bin, isBin, ⟨iter, serves⟩, loaded | ⟨value, stored⟩⟩
    · cases none
    · subst loaded
      refine
        Use.allowed_load (useWrite_shared ?_)
          (Or.inr (writer_sharedBin isBin))
      unfold sharedBin
      omega
    · subst stored
      have server := server_eq isThread serves
      have declared :=
        @useWrite_outputCell _ blockSize _ _ _ _ setting.fits isBin
          (server.trans_lt inside)
      rw [server] at declared
      exact
        Use.allowed_owned declared
          (Or.inr (writer_outputCell setting.fits isBin))
  · intro address inScope notMine
    have below := (below_of_notMine inScope notMine).2
    unfold useWrite
    exact if_neg fun isOutput => Nat.not_lt.mpr isOutput.1 below
  · intro final collected address isGlobal isMine
    have below := isGlobal_iff.mp isGlobal
    obtain ⟨above, ofBlock⟩ := of_mine isGlobal isMine
    unfold goal
    dsimp only
    rw [ofBlock]
    split
    · rename_i served
      obtain ⟨aligned, served⟩ := served
      obtain ⟨bin, isBin, isCell, number⟩ :=
        eq_outputCell setting.someBins above ofBlock aligned
      rw [number] at served ⊢
      have split := Nat.mod_add_div' bin blockSize
      rw [isCell] at isMine ⊢
      rw [collected.owned _ served _ (Or.inr isMine)
          (useWrite_outputCell setting.fits isBin served),
        ← counted bin isBin]
      have wrote :=
        (written served).written (bin / blockSize)
          (Nat.div_lt_of_lt_mul
            (isBin.trans_le (Nat.mul_comm _ _ ▸ setting.covers)))
      rw [split] at wrote
      exact wrote isBin
    · rename_i notServed
      rw [collected.readOnly address (Or.inr isMine),
        zeroed address above below (Or.inr isMine)]
      unfold useWrite
      exact if_neg fun isOutput => notServed isOutput.2.2

/-- The second phase: the elements are counted. -/
theorem counts
    (setting :
      Setting numElements blockSize numBins warpSize iters block input)
    (laid : Laid kernel blockSize iters)
    (ready :
      ∀ localId < threadsInBlock numElements blockSize block,
        Ready numElements blockSize numBins block localId (lane localId))
    (agrees :
      ∀ address,
        InScope (writer numElements numBins) block address →
        memory address =
          GPU.placedView (elements numElements input) address) :
    Completes kernel numElements blockSize numBins warpSize block input
      (3 + 9 * iters) lane memory := by
  have someIters : 0 < iters := by
    have covers := setting.someBins.trans_le setting.covers
    exact Nat.pos_of_mul_pos_right covers
  have inputScope
      {localId : Nat}
      (inside : localId < threadsInBlock numElements blockSize block) :
      InScope (writer numElements numBins) block
        ((block * blockSize + localId) * 4) := by
    refine Or.inl (writer_input ?_ ?_)
    · exact setting.below
    · have isElement := (element_of_thread inside).2
      omega
  have counted
      {localId : Nat}
      (inside : localId < threadsInBlock numElements blockSize block) :=
    @count_active numElements blockSize numBins block localId
      ⟨lane localId, memory, []⟩ (ready localId inside)
      (element_of_thread inside).2 setting.fits
      (input (block * blockSize + localId))
      ((agrees _ (inputScope inside)).trans
        (GPU.placedView_word setting.below (element_of_thread inside).2))
      (setting.inBins _ (element_of_thread inside).2)
  refine
    @Bulk.toBarrier kernel warpSize _ _ (13 + 9 * iters) _ _ _ _ useCount
      _ _ lane setting.someLanes setting.narrow laid.counts ?_
      laid.secondBarrier (fun _ _ => trivial) ?_ ?_ ?_
  · rw [laid.size]
    omega
  · intro localId inside access accessed
    rw [(counted inside).2.1] at accessed
    rcases List.mem_append.mp accessed with loaded | added
    · rcases List.mem_append.mp loaded with none | loaded
      · cases none
      · rw [List.mem_singleton] at loaded
        subst loaded
        refine Use.allowed_load (if_neg ?_) (inputScope inside)
        have below := setting.below
        have isElement := (element_of_thread inside).2
        omega
    · rw [List.mem_singleton] at added
      subst added
      have isBin := setting.inBins _ (element_of_thread inside).2
      refine
        Use.allowed_add (if_pos ?_) (Or.inr (writer_sharedBin isBin))
      unfold sharedBin
      omega
  · intro address inScope notMine
    have below := (below_of_notMine inScope notMine).1
    exact if_neg (Nat.not_le.mpr below)
  · intro later collected
    rw [Nat.add_right_comm]
    refine
      setting.writesOut laid (fun localId inside => (counted inside).2.2)
        ?_ ?_
    · intro bin isBin
      have inScope :
          InScope (writer numElements numBins) block
            (sharedBin numBins block bin) :=
        Or.inr (writer_sharedBin isBin)
      have isShared :
          MemorySystem.sharedMemBase ≤ sharedBin numBins block bin := by
        unfold sharedBin
        omega
      have zero : memory (sharedBin numBins block bin) = 0 := by
        rw [agrees _ inScope,
          GPU.placedView_rest (setting.below.trans isShared)]
      rw [collected.addOnly _ inScope (if_pos isShared), zero, zero_add,
        blockCount, ← sum_ones]
      refine Finset.sum_congr rfl fun localId isThread => ?_
      rw [(counted (Finset.mem_range.mp isThread)).1,
        Function.update_apply, sub_zero]
      dsimp only
      by_cases same : input (block * blockSize + localId) = bin
      · rw [same, if_pos rfl, zero, zero_add, if_pos (decide_eq_true rfl)]
      · have elsewhere :
            sharedBin numBins block bin ≠
              sharedBin numBins block
                (input (block * blockSize + localId)) := by
          unfold sharedBin
          omega
        rw [if_neg elsewhere, zero, if_neg (by simpa using same)]
    · intro address above below inScope
      rw [collected.readOnly address inScope
          (if_neg (Nat.not_le.mpr below)),
        agrees address inScope, GPU.placedView_rest above]

/-- The first phase: the bins are zeroed, which they are already. -/
theorem zeroes
    (setting :
      Setting numElements blockSize numBins warpSize iters block input)
    (laid : Laid kernel blockSize iters)
    (registers :
      ∀ localId < threadsInBlock numElements blockSize block,
        Registers numElements blockSize numBins block localId
          (lane localId))
    (agrees :
      ∀ address,
        InScope (writer numElements numBins) block address →
        memory address =
          GPU.placedView (elements numElements input) address) :
    Completes kernel numElements blockSize numBins warpSize block input
      0 lane memory := by
  have zeroed
      {localId : Nat}
      (inside : localId < threadsInBlock numElements blockSize block) :
      Zeroed numElements blockSize numBins block localId
        ⟨lane localId, memory, []⟩
        (zeroAll blockSize iters
          (OwnLane.executeAll [mov 19 0, mov 12 4]
            ⟨lane localId, memory, []⟩)) := by
    obtain ⟨ready, sameMemory, sameTouched⟩ :=
      @Registers.prolog _ _ _ _ _ ⟨lane localId, memory, []⟩
        (registers localId inside)
    have zeroed := zeroAll_zeroed ready setting.small setting.fits
    refine ⟨zeroed.ready, fun address => ?_, fun access accessed => ?_⟩
    · rw [← sameMemory]
      exact zeroed.memory address
    · rw [← sameTouched]
      exact zeroed.touched access accessed
  refine
    @Bulk.toBarrier kernel warpSize _ _ (2 + 9 * iters) _ _ _ _
      (useZero blockSize numBins
        (threadsInBlock numElements blockSize block))
      _ _ lane setting.someLanes setting.narrow laid.zeroes ?_
      laid.barrier (fun _ _ => trivial) ?_ ?_ ?_
  · rw [laid.size]
    omega
  · intro localId inside access accessed
    obtain ⟨isThread, _⟩ := element_of_thread inside
    rcases (zeroed inside).touched access accessed with
      none | ⟨bin, isBin, ⟨iter, serves⟩, stored⟩
    · cases none
    · subst stored
      have server := server_eq isThread serves
      have declared :=
        @useZero_sharedBin blockSize _ block _ _ isBin
          (server.trans_lt inside)
      rw [server] at declared
      exact Use.allowed_owned declared (Or.inr (writer_sharedBin isBin))
  · intro address inScope notMine
    have below := (below_of_notMine inScope notMine).1
    unfold useZero
    exact if_neg fun isShared => Nat.not_lt.mpr isShared.1 below
  · intro later collected
    rw [Nat.add_right_comm]
    refine
      setting.counts laid (fun localId inside => (zeroed inside).ready)
        fun address inScope => ?_
    rw [← agrees address inScope]
    cases declared :
        useZero blockSize numBins
          (threadsInBlock numElements blockSize block) address with
    | owned localId =>
        unfold useZero at declared
        dsimp only at declared
        split at declared
        · rename_i isServed
          cases declared
          rw [collected.owned _ isServed.2 address inScope]
          · rcases (zeroed isServed.2).memory address with same | zero
            · exact same
            · rw [zero, agrees address inScope,
                GPU.placedView_rest (setting.below.trans isServed.1)]
          · exact if_pos isServed
        · cases declared
    | readOnly => exact collected.readOnly address inScope declared
    | addOnly =>
        unfold useZero at declared
        dsimp only at declared
        split at declared
        · cases declared
        · cases declared

end Setting

end Phases

/-! ## Runs -/

/-- The threads of the histogram grid belong to their blocks. -/
theorem histogramThread_blockId
    {numElements blockSize warpSize numBins block warpId lane : Nat}
    {thread : Thread}
    (built :
      histogramThread numElements blockSize warpSize numBins block warpId
          lane =
        .ok thread) :
    thread.blockId = block :=
  writeRegisters_blockId built

section Runs

variable {σ : Type}
variable [WarpScheduler σ]
variable [LawfulWarpScheduler σ]
variable {numElements blockSize numBins warpSize : Nat}
variable {input : Nat → Nat}
variable {kernel : Kernel}
variable {grid : Grid}
variable {config launchConfig : SystemConfig}
variable {createScheduler : SystemConfig → Except SimError σ}
variable {rng : Nat → Nat → Nat → Nat}
variable {gpu after : GPU σ}
variable {req : KernelResourceRequirements}
variable {fuel : Nat}

/-- A kernel that is generated has few iterations, which cover the bins. -/
theorem generated_ok
    (someThreads : 0 < blockSize)
    (isInt : numBins + blockSize < 2 ^ 31)
    (generated :
      generateHistogramKernel numBins blockSize isInt = .ok kernel) :
    histogramIters numBins blockSize ≤ 8 ∧
      numBins ≤ histogramIters numBins blockSize * blockSize ∧
      Laid kernel blockSize (histogramIters numBins blockSize) := by
  unfold generateHistogramKernel at generated
  split at generated
  · cases generated
  · rename_i small
    cases generated
    exact
      ⟨Nat.not_lt.mp small, Chunks.le_count_mul someThreads numBins,
        laid_of_instructions rfl⟩

/-- The output cells of the blocks that are there fit before shared memory. -/
theorem block_fits
    {block : Nat}
    (fits :
      numElements * 4 + numBlocks numElements blockSize * (numBins * 4) ≤
        MemorySystem.sharedMemBase)
    (inside : block < numBlocks numElements blockSize) :
    numElements * 4 + block * numBins * 4 + numBins * 4 ≤
      MemorySystem.sharedMemBase := by
  have cells :
      (block + 1) * (numBins * 4) ≤
        numBlocks numElements blockSize * (numBins * 4) :=
    Nat.mul_le_mul_right _ inside
  rw [Nat.succ_mul, ← Nat.mul_assoc] at cells
  omega

/-- After a run every output cell holds what its bin was written with. -/
theorem outputCell_final
    (someThreads : 0 < blockSize)
    (someBins : 0 < numBins)
    (someLanes : 0 < warpSize)
    (narrow : warpSize ≤ 32)
    (inBins : ∀ index < numElements, input index < numBins)
    (fits :
      numElements * 4 + numBlocks numElements blockSize * (numBins * 4) ≤
        MemorySystem.sharedMemBase)
    (isInt : numBins + blockSize < 2 ^ 31)
    (generated :
      generateHistogramKernel numBins blockSize isInt = .ok kernel)
    (built :
      buildHistogramGrid numElements blockSize warpSize numBins = .ok grid)
    (fresh : GPU.new config createScheduler rng = .ok gpu)
    (hasSms : 0 < config.numSms)
    (ran :
      (gpu.place (elements numElements input)).launchAndRun grid
          launchConfig req kernel fuel =
        some (.ok after))
    {block bin : Nat}
    (isBlock : block < numBlocks numElements blockSize)
    (isBin : bin < numBins) :
    after.globalMemory.data (outputCell numElements numBins block bin) =
      goal numElements blockSize numBins input
        (outputCell numElements numBins block bin) := by
  obtain ⟨small, covers, laid⟩ := generated_ok someThreads isInt generated
  have hasCode : 0 < kernel.size := by
    rw [laid.size]
    omega
  have blockFits := block_fits fits isBlock
  refine
    GPU.elementGrid_correct someThreads someLanes narrow hasCode built
      (fun _ _ _ _ isBuilt => histogramThread_blockId isBuilt) ?_ fresh
      hasSms ran (isGlobal_iff.mpr (small_outputCell blockFits isBin))
      isBlock (writer_outputCell blockFits isBin)
  intro other isOther warps warpsBuilt memory agrees
  have setting :
      Setting numElements blockSize numBins warpSize
        (histogramIters numBins blockSize) other input :=
    ⟨someThreads, someBins, someLanes, narrow, small, covers,
      block_fits fits isOther, inBins⟩
  exact
    setting.zeroes laid
      (fun localId inside =>
        builtLane_registers someLanes warpsBuilt inside)
      agrees

/-- An output cell has its count if a thread of its block serves the bin. -/
theorem goal_outputCell
    {block bin : Nat}
    (isBin : bin < numBins) :
    goal numElements blockSize numBins input
        (outputCell numElements numBins block bin) =
      if bin % blockSize < threadsInBlock numElements blockSize block then
        BitVec.ofNat 32 (blockCount numElements blockSize input block bin)
      else
        0 := by
  have ofBlock :
      (outputCell numElements numBins block bin - numElements * 4) /
          (numBins * 4) =
        block :=
    block_of_cell isBin
  have number :
      (outputCell numElements numBins block bin - numElements * 4) %
            (numBins * 4) / 4 =
        bin :=
    index_of_cell isBin
  have aligned :
      (outputCell numElements numBins block bin - numElements * 4) % 4 =
        0 := by
    unfold outputCell
    omega
  unfold goal
  simp only [ofBlock, number, aligned, true_and]

/-- A bin is counted once at most for each thread. -/
theorem blockCount_pos_iff
    {block bin : Nat} :
    0 < blockCount numElements blockSize input block bin ↔
      ∃ localId < threadsInBlock numElements blockSize block,
        input (block * blockSize + localId) = bin := by
  rw [blockCount, List.countP_pos_iff]
  simp only [List.mem_range, decide_eq_true_iff]

/-- The counts of a block fit into a word. -/
theorem blockCount_lt
    {block bin : Nat}
    (below : numElements * 4 ≤ MemorySystem.sharedMemBase) :
    blockCount numElements blockSize input block bin < 2 ^ 32 := by
  have atMost :
      blockCount numElements blockSize input block bin ≤
        threadsInBlock numElements blockSize block := by
    have counted :=
      @List.countP_le_length _
        (fun localId =>
          decide (input (block * blockSize + localId) = bin))
        (List.range (threadsInBlock numElements blockSize block))
    rwa [List.length_range] at counted
  unfold threadsInBlock at atMost
  unfold MemorySystem.sharedMemBase at below
  omega

/--
A run of the benchmark leaves the histogram of every block in its output cells
exactly if every element falls in a bin that a thread of its block serves.
-/
theorem histogram_correct_iff
    (someThreads : 0 < blockSize)
    (someBins : 0 < numBins)
    (someLanes : 0 < warpSize)
    (narrow : warpSize ≤ 32)
    (inBins : ∀ index < numElements, input index < numBins)
    (fits :
      numElements * 4 + numBlocks numElements blockSize * (numBins * 4) ≤
        MemorySystem.sharedMemBase)
    (isInt : numBins + blockSize < 2 ^ 31)
    (generated :
      generateHistogramKernel numBins blockSize isInt = .ok kernel)
    (built :
      buildHistogramGrid numElements blockSize warpSize numBins = .ok grid)
    (fresh : GPU.new config createScheduler rng = .ok gpu)
    (hasSms : 0 < config.numSms)
    (ran :
      (gpu.place (elements numElements input)).launchAndRun grid
          launchConfig req kernel fuel =
        some (.ok after)) :
    (∀ block < numBlocks numElements blockSize,
        ∀ bin < numBins,
          after.globalMemory.data
              (numElements * 4 + block * numBins * 4 + bin * 4) =
            BitVec.ofNat 32
              (blockCount numElements blockSize input block bin)) ↔
      ∀ block < numBlocks numElements blockSize,
        ∀ localId < threadsInBlock numElements blockSize block,
          input (block * blockSize + localId) % blockSize <
            threadsInBlock numElements blockSize block := by
  have final
      {block bin : Nat}
      (isBlock : block < numBlocks numElements blockSize)
      (isBin : bin < numBins) :=
    (outputCell_final someThreads someBins someLanes narrow inBins fits
      isInt generated built fresh hasSms ran isBlock isBin).trans
      (goal_outputCell isBin)
  constructor
  · intro correct block isBlock localId inside
    by_contra notServed
    have isBin := inBins _ (element_of_thread inside).2
    have cell := final isBlock isBin
    rw [if_neg notServed] at cell
    have count := correct block isBlock _ isBin
    change
      after.globalMemory.data (outputCell numElements numBins block _) = _
      at count
    have some :
        0 <
          blockCount numElements blockSize input block
            (input (block * blockSize + localId)) :=
      blockCount_pos_iff.mpr ⟨localId, inside, rfl⟩
    have small :=
      @blockCount_lt numElements blockSize input block
        (input (block * blockSize + localId)) (by omega)
    rw [cell] at count
    have value := congrArg BitVec.toNat count
    rw [BitVec.toNat_ofNat, Nat.mod_eq_of_lt small] at value
    exact Nat.ne_of_lt some value
  · intro served block isBlock bin isBin
    change
      after.globalMemory.data (outputCell numElements numBins block bin) = _
    rw [final isBlock isBin]
    split
    · rfl
    · rename_i notServed
      have none :
          blockCount numElements blockSize input block bin = 0 := by
        refine Nat.eq_zero_of_not_pos fun some => ?_
        obtain ⟨localId, inside, rfl⟩ := blockCount_pos_iff.mp some
        exact notServed (served block isBlock localId inside)
      rw [none]
      rfl

end Runs

/-! ## Runs on one multiprocessor -/

/-- One multiprocessor with room for one block of two threads. -/
def tiny : SystemConfig where
  numSms := 1
  warpSize := 1
  blockSize := 2
  maxThreadsPerSm := 2
  maxBlocksPerSm := 1
  maxSharedMemoryPerSm := 8
  maxRegistersPerSm := 64
  maxWarpsPerSm := 2
  l1Sets := 1
  l1Associativity := 1
  l1LineSize := 4
  l2Sets := 1
  l2Associativity := 1
  l2LineSize := 4
  l1Latency := 1
  l2Latency := 1
  globalMemoryLatency := 1
  writebackLatency := 0
  sharedMemoryBanks := 1
  globalMemorySize := 16

/-- A run on it that counts elements in two bins. -/
def TinyRun
    (numElements : Nat)
    (input : Nat → Nat)
    (after : GPU Scheduler) :
    Prop :=
  ∃ kernel grid gpu,
    generateHistogramKernel 2 2 (by decide) = .ok kernel ∧
      buildHistogramGrid numElements 2 1 2 = .ok grid ∧
      GPU.new tiny (fun _ => .ok Scheduler.greedy) (fun _ _ _ => 0) =
        .ok gpu ∧
      (gpu.place (elements numElements input)).launchAndRun grid tiny
          ⟨32, 8⟩ kernel 200 =
        some (.ok after)

/-- Whether such a run returns normally. -/
def returns (numElements : Nat) (input : Nat → Nat) : Bool :=
  match generateHistogramKernel 2 2 (by decide),
    buildHistogramGrid numElements 2 1 2,
    GPU.new tiny (fun _ => .ok Scheduler.greedy) (fun _ _ _ => 0) with
  | .ok kernel, .ok grid, .ok gpu =>
      ((gpu.place (elements numElements input)).launchAndRun grid tiny
          ⟨32, 8⟩ kernel 200).any Except.isOk
  | _, _, _ => false

theorem exists_tinyRun
    {numElements : Nat}
    {input : Nat → Nat}
    (isOk : returns numElements input = true) :
    ∃ after, TinyRun numElements input after := by
  unfold returns at isOk
  split at isOk
  · rename_i kernel grid gpu generated built fresh
    obtain ⟨after, ran⟩ := option_any_isOk isOk
    exact ⟨after, kernel, grid, gpu, generated, built, fresh, ran⟩
  · cases isOk

/-- The bin of the only element of a last block has no thread. -/
theorem histogram_drops_bin :
    ∃ after,
      TinyRun 1 (fun _ => 1) after ∧
        after.globalMemory.data (1 * 4 + 0 * 2 * 4 + 1 * 4) ≠
          BitVec.ofNat 32 (blockCount 1 2 (fun _ => 1) 0 1) := by
  obtain ⟨after, run⟩ :=
    @exists_tinyRun 1 (fun _ => 1) (by decide +kernel)
  refine ⟨after, run, ?_⟩
  obtain ⟨kernel, grid, gpu, generated, built, fresh, ran⟩ := run
  have final :=
    @outputCell_final Scheduler _ _ 1 2 2 1 (fun _ => 1) kernel grid tiny
      tiny _ _ gpu after _ _ (by decide) (by decide) (by decide) (by decide)
      (by decide) (by decide) (by decide) generated built fresh (by decide)
      ran 0 1
      (by decide) (by decide)
  rw [goal_outputCell (by decide), if_neg (by decide)] at final
  change after.globalMemory.data (outputCell 1 2 0 1) ≠ _
  rw [final]
  decide

/-- Two elements of one bin in a full block are counted. -/
theorem histogram_correct_iff_twoElements :
    ∃ after,
      TinyRun 2 (fun _ => 1) after ∧
        after.globalMemory.data (2 * 4 + 0 * 2 * 4 + 1 * 4) =
          BitVec.ofNat 32 (blockCount 2 2 (fun _ => 1) 0 1) := by
  obtain ⟨after, run⟩ :=
    @exists_tinyRun 2 (fun _ => 1) (by decide +kernel)
  refine ⟨after, run, ?_⟩
  obtain ⟨kernel, grid, gpu, generated, built, fresh, ran⟩ := run
  exact
    (@histogram_correct_iff Scheduler _ _ 2 2 2 1 (fun _ => 1) kernel grid
      tiny tiny _ _ gpu after _ _ (by decide) (by decide) (by decide)
      (by decide) (by decide) (by decide) (by decide) generated built fresh
      (by decide) ran).mpr
      (by decide) 0 (by decide) 1 (by decide)

end Histogram

end SimSm
