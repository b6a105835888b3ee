import SimSm.Grids
import SimSm.SingleWarp

namespace SimSm

/-!
# The benchmark grid as a partition

The benchmark grid cuts the threads into blocks and each block into warps.  The
number of blocks is computed from a sum in `size_t`; where the sum does not wrap
around, every thread is in the grid once, in order.
-/

open Outcome

namespace Benchmarks

/-! ## Building -/

/-- A traversal whose steps all succeed succeeds. -/
theorem mapM_succeeds
    {α β ε : Type}
    {step : α → Except ε β}
    {inputs : List α}
    (succeeds : ∀ input ∈ inputs, ∃ output, step input = .ok output) :
    ∃ outputs, inputs.mapM step = .ok outputs := by
  induction inputs with
  | nil => exact ⟨[], rfl⟩
  | cons input rest inductionHypothesis =>
      obtain ⟨output, now⟩ := succeeds input List.mem_cons_self
      obtain ⟨outputs, later⟩ :=
        inductionHypothesis fun other member =>
          succeeds other (List.mem_cons_of_mem _ member)
      refine ⟨output :: outputs, ?_⟩
      rw [List.mapM_cons]
      exact
        except_bind_ok.mpr
          ⟨output, now, except_bind_ok.mpr ⟨outputs, later, rfl⟩⟩

/-- Registers of the file can be written, and keep who the thread is. -/
theorem writeRegisters_succeeds
    {values : List (Nat × Nat)}
    (valid : ∀ entry ∈ values, entry.1 < 32)
    (thread : Thread) :
    ∃ written,
      writeRegisters thread values = .ok written ∧
        written.identity = thread.identity := by
  unfold writeRegisters
  induction values generalizing thread with
  | nil => exact ⟨thread, rfl, rfl⟩
  | cons entry rest inductionHypothesis =>
      have small := valid entry List.mem_cons_self
      have isRegister : RegisterOperand (entry.1 : Int) :=
        ⟨Int.natCast_nonneg _, by omega⟩
      obtain ⟨written, later, same⟩ :=
        inductionHypothesis
          (fun other member => valid other (List.mem_cons_of_mem _ member))
          { thread with
            registers :=
              (thread.lane.write entry.1
                (BitVec.ofNat 32 entry.2)).registers }
      refine ⟨written, ?_, same⟩
      rw [List.foldlM_cons]
      refine except_bind_ok.mpr ⟨_, ?_, later⟩
      exact
        except_bind_ok.mpr
          ⟨_, RegisterFile.write_of_valid isRegister _, rfl⟩

/-- Every thread of the benchmark grid is built, with its five ids. -/
theorem benchmarkThread_succeeds
    (strided : Bool)
    (blockSize warpSize block warpId lane : Nat) :
    ∃ thread,
      benchmarkThread strided blockSize warpSize block warpId lane =
          .ok thread ∧
        thread.identity =
          (block * blockSize + (warpId * warpSize + lane), block,
            warpId * warpSize + lane, warpId, lane) :=
  writeRegisters_succeeds (by simp) _

/-- The ids of a thread that was built. -/
theorem benchmarkThread_identity
    {strided : Bool}
    {blockSize warpSize block warpId lane : Nat}
    {thread : Thread}
    (built :
      benchmarkThread strided blockSize warpSize block warpId lane =
        .ok thread) :
    thread.identity =
      (block * blockSize + (warpId * warpSize + lane), block,
        warpId * warpSize + lane, warpId, lane) := by
  obtain ⟨other, isOther, ids⟩ :=
    benchmarkThread_succeeds strided blockSize warpSize block warpId lane
  rw [built] at isOther
  cases isOther
  exact ids

/-- The warps of a block are built when their threads are. -/
theorem buildWarps_succeeds
    {buildThread : Nat → Nat → Except SimError Thread}
    (succeeds :
      ∀ warpId lane, ∃ thread, buildThread warpId lane = .ok thread)
    (numThreads warpSize : Nat) :
    ∃ warps, buildWarps numThreads warpSize buildThread = .ok warps := by
  refine mapM_succeeds fun warpId _ => ?_
  obtain ⟨threads, built⟩ :=
    @mapM_succeeds _ _ _ (buildThread warpId)
      (List.range (min warpSize (numThreads - warpId * warpSize)))
      fun lane _ => succeeds warpId lane
  exact ⟨_, except_bind_ok.mpr ⟨threads, built, rfl⟩⟩

/-- The benchmark grid is always built. -/
theorem buildBenchmarkGrid_succeeds
    (numThreads blockSize warpSize : Nat)
    (strided : Bool) :
    ∃ grid,
      buildBenchmarkGrid numThreads blockSize warpSize strided =
        .ok grid := by
  have each
      (block : Nat) :
      ∃ warps,
        buildWarps (threadsInBlock numThreads blockSize block) warpSize
            (benchmarkThread strided blockSize warpSize block) =
          .ok warps := by
    refine buildWarps_succeeds (fun warpId lane => ?_) _ _
    obtain ⟨thread, built, _⟩ :=
      benchmarkThread_succeeds strided blockSize warpSize block warpId lane
    exact ⟨thread, built⟩
  obtain ⟨blocks, built⟩ :=
    @mapM_succeeds _ _ _
      (fun block => do
        let warps ←
          buildWarps (threadsInBlock numThreads blockSize block) warpSize
            (benchmarkThread strided blockSize warpSize block)
        pure
          { blockId := block
            warps :=
              warps.map fun warp =>
                { warp with priority := toInt32 warp.warpId } :
            ThreadBlock })
      (List.range (numBlocks numThreads blockSize))
      fun block _ => by
        obtain ⟨warps, built⟩ := each block
        exact ⟨_, except_bind_ok.mpr ⟨warps, built, rfl⟩⟩
  exact ⟨_, except_bind_ok.mpr ⟨blocks, built, rfl⟩⟩

/-! ## The partition -/

/-- A warp of a block: its threads, their ids and its mask. -/
structure IsPart
    (blockSize warpSize blockId position : Nat)
    (warp : Warp) : Prop where
  warpId : warp.warpId = position
  some : 1 ≤ warp.threads.length
  fits : warp.threads.length ≤ warpSize
  ids :
    ∀ (lane : Nat) (thread : Thread),
      warp.threads[lane]? = Option.some thread →
      thread.laneId = lane ∧ thread.warpId = warp.warpId ∧
        thread.blockId = blockId ∧
        thread.localId = thread.warpId * warpSize + thread.laneId ∧
        thread.globalId = thread.blockId * blockSize + thread.localId
  mask :
    ∀ bit,
      warp.activeMask.getLsbD bit = decide (bit < warp.threads.length)

/-- A grid that partitions its threads into blocks and warps. -/
structure Partitions
    (numThreads blockSize warpSize : Nat)
    (grid : Grid) : Prop where
  inOrder :
    (grid.blocks.flatMap fun block =>
        block.warps.flatMap Warp.threads).map Thread.globalId =
      List.range numThreads
  blocks :
    ∀ (position : Nat) (block : ThreadBlock),
      grid.blocks[position]? = some block →
      block.blockId = position ∧
        block.numThreads =
          min blockSize (numThreads - position * blockSize) ∧
        0 < block.numThreads
  warps :
    ∀ block ∈ grid.blocks,
      ∀ (position : Nat) (warp : Warp),
        block.warps[position]? = some warp →
        IsPart blockSize warpSize block.blockId position warp ∧
          (position + 1 < block.warps.length →
            warp.threads.length = warpSize)

section Block

variable {strided : Bool}
variable {numThreads blockSize warpSize blockId : Nat}
variable {warps : List Warp}

/-- The warps that are built for a block. -/
theorem buildWarps_parts
    (positive : 0 < warpSize)
    (narrow : warpSize ≤ 32)
    (ran :
      buildWarps numThreads warpSize
          (benchmarkThread strided blockSize warpSize blockId) =
        .ok warps)
    {position : Nat}
    {warp : Warp}
    (found : warps[position]? = some warp) :
    IsPart blockSize warpSize blockId position warp ∧
      (position + 1 < warps.length → warp.threads.length = warpSize) ∧
      warp.threads.map Thread.globalId =
        (Chunks.chunk warpSize numThreads position).map
          (blockId * blockSize + ·) := by
  obtain ⟨threads, rfl, built⟩ := buildWarps_at ran found
  have length := built.length_eq
  rw [List.length_range] at length
  have lanes : threads.length ≤ 32 := by
    rw [← length]
    exact (Nat.min_le_left _ _).trans narrow
  obtain ⟨isWarp, _⟩ := List.getElem?_eq_some_iff.mp found
  rw [buildWarps_length ran] at isWarp
  obtain ⟨some, full⟩ := Chunks.chunk_size positive isWarp
  rw [Warp.ofThreads_eq position lanes, buildWarps_length ran]
  have identities
      {lane : Nat}
      {thread : Thread}
      (isThread : threads[lane]? = Option.some thread) :
      thread.identity =
        (blockId * blockSize + (position * warpSize + lane), blockId,
          position * warpSize + lane, position, lane) := by
    exact
      benchmarkThread_identity (Pointwise.origin_range built isThread).2
  refine ⟨⟨rfl, ?_, ?_, fun lane thread isThread => ?_, fun bit => ?_⟩,
    fun notLast => ?_, ?_⟩
  · rw [← length]
    exact some
  · rw [← length]
    exact Nat.min_le_left _ _
  · have ids := identities isThread
    simp only [Thread.identity, Prod.mk.injEq] at ids
    obtain ⟨globalId, block, localId, warpId, laneId⟩ := ids
    refine ⟨laneId, warpId, block, ?_, ?_⟩
    · rw [localId, warpId, laneId]
    · rw [globalId, block, localId]
  · rw [ActiveMask.getLsbD_full, ← Bool.decide_and, decide_eq_decide]
    exact and_iff_right_of_imp fun inside => by omega
  · rw [← length]
    exact full notLast
  · have sameIds :=
      @Pointwise.map_eq _ _ _ _ _ _
        (fun lane =>
          blockId * blockSize + (position * warpSize + lane))
        Thread.globalId built fun isBuilt => by
          have ids := benchmarkThread_identity isBuilt
          simp only [Thread.identity, Prod.mk.injEq] at ids
          exact ids.1
    rw [sameIds, Chunks.chunk, List.map_map]
    rfl

/-- The threads of a block, in order. -/
theorem buildWarps_inOrder
    (positive : 0 < warpSize)
    (narrow : warpSize ≤ 32)
    (ran :
      buildWarps numThreads warpSize
          (benchmarkThread strided blockSize warpSize blockId) =
        .ok warps) :
    (warps.flatMap Warp.threads).map Thread.globalId =
      (List.range numThreads).map (blockId * blockSize + ·) := by
  have perWarp :
      warps.map (fun warp => warp.threads.map Thread.globalId) =
        (List.range (Chunks.count warpSize numThreads)).map fun position =>
          (Chunks.chunk warpSize numThreads position).map
            (blockId * blockSize + ·) := by
    refine
      Pointwise.map_eq_range (buildWarps_length ran) fun found => ?_
    exact (buildWarps_parts positive narrow ran found).2.2
  rw [List.map_flatMap, List.flatMap_def, perWarp, ← List.flatMap_def,
    ← List.map_flatMap, Chunks.flatMap_count positive]

end Block

/-- What a block of the benchmark grid is built as. -/
theorem buildBenchmarkGrid_block
    {numThreads blockSize warpSize : Nat}
    {strided : Bool}
    {grid : Grid}
    (ran :
      buildBenchmarkGrid numThreads blockSize warpSize strided = .ok grid) :
    grid.blocks.length = numBlocks numThreads blockSize ∧
      ∀ (position : Nat) (block : ThreadBlock),
        grid.blocks[position]? = some block →
        block.blockId = position ∧
          ∃ warps,
            buildWarps (threadsInBlock numThreads blockSize position)
                  warpSize
                  (benchmarkThread strided blockSize warpSize position) =
                .ok warps ∧
              block.warps =
                warps.map fun warp =>
                  { warp with priority := toInt32 warp.warpId } := by
  obtain ⟨blocks, each, returned⟩ := except_bind_ok.mp ran
  cases returned
  have built := except_mapM_ok.mp each
  refine ⟨?_, fun position block found => ?_⟩
  · rw [← built.length_eq, List.length_range]
  · obtain ⟨warps, warpsBuilt, returned⟩ :=
      except_bind_ok.mp (Pointwise.origin_range built found).2
    cases returned
    exact ⟨rfl, warps, warpsBuilt, rfl⟩

section Partition

variable {numThreads blockSize warpSize : Nat}
variable {strided : Bool}
variable {grid : Grid}

/-- Without a wrap there are as many blocks as it takes. -/
theorem numBlocks_eq_count
    (noWrap : numThreads + blockSize ≤ 2 ^ 64)
    (positive : 0 < blockSize) :
    numBlocks numThreads blockSize =
      Chunks.count blockSize numThreads := by
  unfold numBlocks Chunks.count
  split
  · rename_i none
    rw [none, Nat.zero_add, Nat.div_eq_of_lt (by omega)]
  · rw [Nat.mod_eq_of_lt (by omega)]

/-- With a wrap there are none, however many threads there should be. -/
theorem numBlocks_eq_zero
    (isSize : numThreads < 2 ^ 64)
    (wraps : 2 ^ 64 < numThreads + blockSize)
    (blockIsSize : blockSize < 2 ^ 64) :
    numBlocks numThreads blockSize = 0 := by
  unfold numBlocks
  split
  · rfl
  · have wrapped :
        (numThreads + blockSize - 1) % 2 ^ 64 =
          numThreads + blockSize - 1 - 2 ^ 64 := by
      rw [Nat.mod_eq_sub_mod (by omega), Nat.mod_eq_of_lt (by omega)]
    rw [wrapped, Nat.div_eq_of_lt (by omega)]

/-- Changing its priority leaves a warp's part of the block. -/
theorem IsPart.prioritise
    {blockId position : Nat}
    {warp : Warp}
    (isPart : IsPart blockSize warpSize blockId position warp)
    (priority : Int) :
    IsPart blockSize warpSize blockId position
      { warp with priority := priority } :=
  ⟨isPart.warpId, isPart.some, isPart.fits, isPart.ids, isPart.mask⟩

/-- Without a wrap the benchmark grid partitions its threads. -/
theorem buildBenchmarkGrid_partitions
    (positive : 0 < blockSize)
    (warpPositive : 0 < warpSize)
    (narrow : warpSize ≤ 32)
    (noWrap : numThreads + blockSize ≤ 2 ^ 64)
    (ran :
      buildBenchmarkGrid numThreads blockSize warpSize strided = .ok grid) :
    Partitions numThreads blockSize warpSize grid := by
  obtain ⟨length, built⟩ := buildBenchmarkGrid_block ran
  rw [numBlocks_eq_count noWrap positive] at length
  have inOrder
      {position : Nat}
      {block : ThreadBlock}
      (found : grid.blocks[position]? = some block) :
      (block.warps.flatMap Warp.threads).map Thread.globalId =
        Chunks.chunk blockSize numThreads position := by
    obtain ⟨_, warps, warpsBuilt, shape⟩ := built position block found
    rw [shape, List.flatMap_map]
    exact buildWarps_inOrder warpPositive narrow warpsBuilt
  refine ⟨?_, fun position block found => ?_, ?_⟩
  · have perBlock :
        (grid.blocks.map fun block =>
            (block.warps.flatMap Warp.threads).map Thread.globalId) =
          (List.range (Chunks.count blockSize numThreads)).map
            (Chunks.chunk blockSize numThreads) :=
      Pointwise.map_eq_range length inOrder
    rw [List.map_flatMap, List.flatMap_def, perBlock, ← List.flatMap_def,
      Chunks.flatMap_count positive]
  · obtain ⟨inside, _⟩ := List.getElem?_eq_some_iff.mp found
    rw [length] at inside
    have threads := congrArg List.length (inOrder found)
    rw [List.length_map, List.length_flatMap, Chunks.chunk,
      List.length_map, List.length_range] at threads
    have isCount :
        block.numThreads =
          min blockSize (numThreads - position * blockSize) :=
      threads
    refine ⟨(built position block found).1, isCount, ?_⟩
    rw [isCount]
    exact (Chunks.chunk_size positive inside).1
  · intro block member position warp found
    obtain ⟨blockPosition, isBlock⟩ := List.mem_iff_getElem?.mp member
    obtain ⟨rfl, warps, warpsBuilt, shape⟩ :=
      built blockPosition block isBlock
    rw [shape, List.getElem?_map] at found
    obtain ⟨original, isOriginal, rfl⟩ := Option.map_eq_some_iff.mp found
    obtain ⟨isPart, full, _⟩ :=
      buildWarps_parts warpPositive narrow warpsBuilt isOriginal
    rw [shape, List.length_map]
    exact ⟨isPart.prioritise _, full⟩

/--
The benchmark grid partitions its threads exactly when the sum from which the
number of blocks is computed does not wrap around.
-/
theorem buildBenchmarkGrid_partitions_iff
    (isSize : numThreads < 2 ^ 64)
    (blockIsSize : blockSize < 2 ^ 64)
    (positive : 0 < blockSize)
    (warpPositive : 0 < warpSize)
    (narrow : warpSize ≤ 32)
    (strided : Bool) :
    (∃ grid,
        buildBenchmarkGrid numThreads blockSize warpSize strided =
            .ok grid ∧
          Partitions numThreads blockSize warpSize grid) ↔
      numThreads + blockSize - 1 < 2 ^ 64 := by
  constructor
  · rintro ⟨grid, ran, partitions⟩
    by_contra wraps
    obtain ⟨length, _⟩ := buildBenchmarkGrid_block ran
    rw [numBlocks_eq_zero isSize (by omega) blockIsSize] at length
    have inOrder := partitions.inOrder
    rw [List.eq_nil_of_length_eq_zero length, List.flatMap_nil,
      List.map_nil] at inOrder
    have none := congrArg List.length inOrder
    rw [List.length_nil, List.length_range] at none
    omega
  · intro noWrap
    obtain ⟨grid, ran⟩ :=
      buildBenchmarkGrid_succeeds numThreads blockSize warpSize strided
    exact
      ⟨grid, ran,
        buildBenchmarkGrid_partitions positive warpPositive narrow
          (by omega) ran⟩

end Partition

/-- Five threads in blocks of three and warps of two. -/
theorem buildBenchmarkGrid_partitions_iff_five :
    (∃ grid,
        buildBenchmarkGrid 5 3 2 false = .ok grid ∧
          Partitions 5 3 2 grid) ↔
      5 + 3 - 1 < 2 ^ 64 :=
  buildBenchmarkGrid_partitions_iff (by decide) (by decide) (by decide)
    (by decide) (by decide) false

/-- Two threads in blocks of the largest size there is get no block. -/
theorem buildBenchmarkGrid_drops_threads :
    ∃ grid,
      buildBenchmarkGrid 2 (2 ^ 64 - 1) 1 false = .ok grid ∧
        ¬ Partitions 2 (2 ^ 64 - 1) 1 grid := by
  refine ⟨⟨[]⟩, rfl, fun partitions => ?_⟩
  have inOrder := partitions.inOrder
  revert inOrder
  decide

end Benchmarks

end SimSm
