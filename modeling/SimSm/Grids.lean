import SimSm.Benchmarks
import SimSm.Library.Chunks
import SimSm.Progress

namespace SimSm

/-!
# The grid builders

What the grids of the benchmarks look like: their warps are numbered from zero
in every block, and have not run.
-/

open Outcome

/-- The warps of a block. -/
def warpCount (warpSize numThreads : Nat) : Nat :=
  (numThreads + warpSize - 1) / warpSize

/-- The threads of the warp at a position. -/
def warpWidth (warpSize numThreads position : Nat) : Nat :=
  min warpSize (numThreads - position * warpSize)

namespace Benchmarks

/-- Writing a register keeps the block of a thread. -/
theorem writeRegister_blockId
    {thread written : Thread}
    {index value : Nat}
    (ran : writeRegister thread index value = .ok written) :
    written.blockId = thread.blockId := by
  rcases except_bind_ok.mp ran with ⟨registers, _, returned⟩
  cases returned
  rfl

/-- Writing registers keeps the block of a thread. -/
theorem writeRegisters_blockId
    {thread written : Thread}
    {values : List (Nat × Nat)}
    (ran : writeRegisters thread values = .ok written) :
    written.blockId = thread.blockId := by
  unfold writeRegisters at ran
  induction values generalizing thread with
  | nil =>
      cases ran
      rfl
  | cons entry rest inductionHypothesis =>
      rw [List.foldlM_cons] at ran
      rcases except_bind_ok.mp ran with ⟨middle, first, later⟩
      rw [inductionHypothesis later, writeRegister_blockId first]

/-- A warp that is built has some of the elements of its block. -/
theorem threads_nonempty
    {numThreads warpSize warpId : Nat}
    (positive : 0 < warpSize)
    (within : warpId < (numThreads + warpSize - 1) / warpSize) :
    0 < min warpSize (numThreads - warpId * warpSize) := by
  exact (Chunks.chunk_size positive within).1

/-- There are no more blocks than it takes. -/
theorem numBlocks_le_count
    (numElements blockSize : Nat) :
    numBlocks numElements blockSize ≤
      Chunks.count blockSize numElements := by
  unfold numBlocks
  split
  · exact Nat.zero_le _
  · exact Nat.div_le_div_right (Nat.mod_le _ _)

section Built

variable {warpSize numThreads : Nat}
variable {buildThread : Nat → Nat → Except SimError Thread}
variable {warps : List Warp}

/-- The threads of one warp of a block. -/
theorem buildWarps_at
    (ran : buildWarps numThreads warpSize buildThread = .ok warps)
    {position : Nat}
    {warp : Warp}
    (found : warps[position]? = some warp) :
    ∃ threads,
      warp = Warp.ofThreads position threads ∧
        List.Forall₂
          (fun number thread => buildThread position number = .ok thread)
          (List.range (warpWidth warpSize numThreads position)) threads := by
  obtain ⟨threads, each, returned⟩ :=
    except_bind_ok.mp
      (Pointwise.origin_range (except_mapM_ok.mp ran) found).2
  cases returned
  exact ⟨threads, rfl, except_mapM_ok.mp each⟩

theorem buildWarps_length
    (ran : buildWarps numThreads warpSize buildThread = .ok warps) :
    warps.length = warpCount warpSize numThreads := by
  rw [← (except_mapM_ok.mp ran).length_eq, List.length_range]
  rfl

end Built

/-- The warps that are built are numbered in order and have threads. -/
theorem buildWarps_ok
    {numThreads warpSize blockId : Nat}
    {buildThread : Nat → Nat → Except SimError Thread}
    {warps : List Warp}
    (positive : 0 < warpSize)
    (ofBlock :
      ∀ warpId lane thread,
        buildThread warpId lane = .ok thread → thread.blockId = blockId)
    (ran : buildWarps numThreads warpSize buildThread = .ok warps) :
    ∀ position warp,
      warps[position]? = some warp →
      ∃ threads,
        threads ≠ [] ∧
          (∀ thread ∈ threads, thread.blockId = blockId) ∧
          warp = Warp.ofThreads position threads := by
  intro position warp found
  have built := except_mapM_ok.mp ran
  rcases Pointwise.origin_range built found with ⟨within, builds⟩
  rcases except_bind_ok.mp builds with ⟨threads, each, returned⟩
  cases returned
  have lanes := except_mapM_ok.mp each
  refine ⟨threads, ?_, ?_, rfl⟩
  · have positiveLength := threads_nonempty positive within
    have sameLength := lanes.length_eq
    rw [List.length_range] at sameLength
    rw [sameLength] at positiveLength
    exact List.ne_nil_of_length_pos positiveLength
  · intro thread member
    rcases List.mem_iff_getElem?.mp member with ⟨lane, isThread⟩
    rcases Pointwise.origin lanes isThread with ⟨_, _, builds⟩
    exact ofBlock _ _ thread builds

/-- The blocks of a grid of elements are as the barrier results expect. -/
theorem buildElementGrid_built
    {numElements blockSize warpSize : Nat}
    {buildThread : Nat → Nat → Nat → Except SimError Thread}
    {grid : Grid}
    (positive : 0 < warpSize)
    (ofBlock :
      ∀ block warpId lane thread,
        buildThread block warpId lane = .ok thread →
        thread.blockId = block)
    (ran :
      buildElementGrid numElements blockSize warpSize buildThread =
        .ok grid) :
    ∀ block ∈ grid.blocks, Barrier.Built block := by
  intro block member
  rcases except_bind_ok.mp ran with ⟨blocks, each, returned⟩
  cases returned
  rcases List.mem_iff_getElem?.mp member with ⟨index, found⟩
  rcases Pointwise.origin (except_mapM_ok.mp each) found with
    ⟨blockId, _, builds⟩
  rcases except_bind_ok.mp builds with ⟨warps, warpsBuilt, returned⟩
  cases returned
  intro position warp isWarp
  rw [List.getElem?_map] at isWarp
  rcases Option.map_eq_some_iff.mp isWarp with ⟨built, isBuilt, rfl⟩
  rcases buildWarps_ok positive (ofBlock blockId) warpsBuilt position built
      isBuilt with
    ⟨threads, nonempty, carry, rfl⟩
  refine ⟨threads, nonempty, carry, Or.inr ?_⟩
  rcases Warp.ofThreads_shape position threads with ⟨mask, shape⟩
  rw [shape]

/-- The benchmark grid is built of blocks as the barrier results expect. -/
theorem buildBenchmarkGrid_built
    {numThreads blockSize warpSize : Nat}
    {strided : Bool}
    {grid : Grid}
    (positive : 0 < warpSize)
    (ran :
      buildBenchmarkGrid numThreads blockSize warpSize strided = .ok grid) :
    ∀ block ∈ grid.blocks, Barrier.Built block :=
  buildElementGrid_built positive
    (fun _ _ _ _ built => writeRegisters_blockId built) ran

/-- The ids of a built block are below the largest `size_t`. -/
theorem warpId_lt_of_built
    {block : ThreadBlock}
    {warp : Warp}
    (built : Barrier.Built block)
    (fits : block.warps.length < 2 ^ 64)
    (member : warp ∈ block.warps) :
    warp.warpId < 2 ^ 64 - 1 := by
  rcases List.mem_iff_getElem?.mp member with ⟨position, found⟩
  have inside := (List.getElem?_eq_some_iff.mp found).1
  rcases built position warp found with ⟨threads, _, _, shape⟩
  rcases Warp.ofThreads_shape position threads with ⟨mask, ofThreads⟩
  have isPosition : warp.warpId = position := by
    rcases shape with rfl | rfl
    · rw [ofThreads]
    · rw [ofThreads]
  rw [isPosition]
  exact Nat.lt_sub_of_add_lt (lt_of_le_of_lt inside fits)

/-! ## Two blocks of one thread each -/

/-- The benchmark grid of two one-thread blocks. -/
def pairGrid : Grid :=
  (buildBenchmarkGrid 2 1 1 false).toOption.getD ⟨[]⟩

/-- It is what the builder returns. -/
theorem buildBenchmarkGrid_pair :
    buildBenchmarkGrid 2 1 1 false = .ok pairGrid :=
  except_ok_getD (by decide +kernel)

/-- One of its blocks. -/
def pairBlock (index : Nat) : ThreadBlock :=
  pairGrid.blocks.getD index ⟨0, []⟩

/-- There are two of them. -/
theorem pairBlock_mem
    {index : Nat}
    (inside : index < 2) :
    pairBlock index ∈ pairGrid.blocks := by
  have length : pairGrid.blocks.length = 2 := by
    decide +kernel
  rw [← length] at inside
  rw [pairBlock, List.getD_eq_getElem?_getD,
    List.getElem?_eq_getElem inside]
  exact List.getElem_mem inside

/-! ## A block of three warps -/

/-- The benchmark grid of one block of three one-thread warps. -/
def trioGrid : Grid :=
  (buildBenchmarkGrid 3 3 1 false).toOption.getD ⟨[]⟩

/-- It is what the builder returns. -/
theorem buildBenchmarkGrid_trio :
    buildBenchmarkGrid 3 3 1 false = .ok trioGrid :=
  except_ok_getD (by decide +kernel)

/-- Its block. -/
def trioBlock : ThreadBlock :=
  trioGrid.blocks.headD ⟨0, []⟩

/-- There is one. -/
theorem trioBlock_mem : trioBlock ∈ trioGrid.blocks := by
  have length : trioGrid.blocks.length = 1 := by
    decide +kernel
  rw [trioBlock, List.headD_eq_head?_getD, List.head?_eq_getElem?,
    List.getElem?_eq_getElem (length ▸ Nat.one_pos)]
  exact List.getElem_mem _

/-- Its warps have small ids. -/
theorem warpId_lt_trio
    (block : ThreadBlock)
    (member : block ∈ trioGrid.blocks)
    (warp : Warp)
    (ofBlock : warp ∈ block.warps) :
    warp.warpId < 2 ^ 64 - 1 := by
  have built :=
    buildBenchmarkGrid_built Nat.one_pos buildBenchmarkGrid_trio block member
  refine warpId_lt_of_built built ?_ ofBlock
  have small :
      trioGrid.blocks.all (fun block => block.warps.length < 2 ^ 64) =
        true := by
    decide +kernel
  rw [List.all_eq_true] at small
  exact of_decide_eq_true (small block member)

end Benchmarks

end SimSm
