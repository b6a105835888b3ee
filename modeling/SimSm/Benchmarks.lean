import SimSm.Gpu

namespace SimSm

/-!
# The benchmark programs

The kernels of the vector, copy, GEMM, reduction and histogram benchmarks, and
the grids that the benchmarks run on.  Branch and `SSY` immediates, which the generators patch once the
label is known, are written as the distances they are patched to.
-/

/-! ## Kernels -/

namespace Benchmarks

/-- `MOV dst, immediate`. -/
def mov (dst immediate : Int) : Instruction :=
  ⟨.mov, dst, -1, -1, immediate⟩

/-- `ADD dst, src1, src2`. -/
def add (dst src1 src2 : Int) : Instruction :=
  ⟨.add, dst, src1, src2, 0⟩

/-- `MUL dst, src1, src2`. -/
def mul (dst src1 src2 : Int) : Instruction :=
  ⟨.mul, dst, src1, src2, 0⟩

/-- `CMP src1, src2`. -/
def cmp (src1 src2 : Int) : Instruction :=
  ⟨.cmp, -1, src1, src2, 0⟩

/-- `LOAD dst, [src1]`. -/
def load (dst src1 : Int) : Instruction :=
  ⟨.load, dst, src1, -1, 0⟩

/-- `STORE src1, [src2]`. -/
def store (src1 src2 : Int) : Instruction :=
  ⟨.store, -1, src1, src2, 0⟩

/-- `ATOMIC_ADD src1, [src2]`. -/
def atomicAdd (src1 src2 : Int) : Instruction :=
  ⟨.atomicAdd, -1, src1, src2, 0⟩

/-- `BRANCH` by a distance. -/
def branch (distance : Int) : Instruction :=
  ⟨.branch, -1, -1, -1, distance⟩

/-- `SSY` of a label at a distance. -/
def ssy (distance : Int) : Instruction :=
  ⟨.ssy, -1, -1, -1, distance⟩

/-- `SYNC`. -/
def sync : Instruction :=
  ⟨.sync, 0, 0, 0, 0⟩

/-- `BARRIER`. -/
def barrier : Instruction :=
  ⟨.barrier, 0, 0, 0, 0⟩

/--
A body under a predicate register: the lanes where it equals register 19, which
is zero, skip to the `SYNC`.
-/
def guarded (predicate : Int) (body : List Instruction) : List Instruction :=
  [ssy (body.length + 3), cmp predicate 19, branch (body.length + 1)] ++
    body ++ [sync]

/-- One iteration of the vector addition: three cells at one offset. -/
def vectorAddTurn (offset : Int) : List Instruction :=
  [⟨.load, 3, 0, -1, offset⟩, ⟨.load, 4, 1, -1, offset⟩, add 5 3 4,
    ⟨.store, 2, 5, 2, offset⟩]

/-- The instructions of the vector addition. -/
def vectorAddInstructions (iterations : Nat) : List Instruction :=
  (List.range iterations).flatMap fun i => vectorAddTurn (i * 4 : Nat)

theorem length_vectorAddInstructions
    (iterations : Nat) :
    (vectorAddInstructions iterations).length = 4 * iterations := by
  simp [vectorAddInstructions, vectorAddTurn, List.length_flatMap,
    List.map_const', Nat.mul_comm]

/-- The vector addition, for an `int` number of iterations. -/
def generateVectorAddKernel
    (iterations : Nat)
    (isInt : iterations < 2 ^ 31) :
    Kernel where
  instructions := vectorAddInstructions iterations
  lengthFits := by
    rw [length_vectorAddInstructions]
    omega

/-- One iteration of the copy; all but the last one move both pointers on. -/
def memcpyTurn (iterations i : Nat) : List Instruction :=
  [load 3 0, store 3 1] ++
    if i + 1 < iterations then [add 0 0 2, add 1 1 2] else []

/-- The instructions of the copy. -/
def memcpyInstructions (iterations : Nat) : List Instruction :=
  (List.range iterations).flatMap (memcpyTurn iterations)

theorem length_memcpyTurn_le
    (iterations i : Nat) :
    (memcpyTurn iterations i).length ≤ 4 := by
  unfold memcpyTurn
  split <;> simp

theorem length_memcpyTurns_le
    (iterations turns : Nat) :
    ((List.range turns).flatMap (memcpyTurn iterations)).length ≤
      4 * turns := by
  induction turns with
  | zero => exact Nat.le_refl 0
  | succ turns inductionHypothesis =>
      have last := length_memcpyTurn_le iterations turns
      rw [List.range_succ, List.flatMap_append, List.length_append,
        List.flatMap_singleton]
      omega

/-- The copy, for an `int` number of iterations. -/
def generateMemcpyKernel
    (iterations : Nat)
    (isInt : iterations < 2 ^ 31) :
    Kernel where
  instructions := memcpyInstructions iterations
  lengthFits := by
    have length := length_memcpyTurns_le iterations iterations
    rw [memcpyInstructions]
    omega

/-- The instructions before the outer loop of the GEMM kernel. -/
def gemmProlog : List Instruction :=
  [mov 31 4, mov 8 0, mov 7 0]

/-- Each thread copies one cell of `A` and one of `B` to the tiles. -/
def gemmLoadTiles (tileSize : Nat) : List Instruction :=
  [mul 20 0 13, add 21 20 8, add 22 21 3, mul 23 22 31, add 24 15 23,
    load 25 24,
    mul 26 2 10, add 27 26 3, mul 28 27 31, add 29 14 28,
    store 25 29,
    add 20 8 2, mul 21 20 12, add 22 21 1, mul 23 22 31, add 24 16 23,
    load 25 24,
    mov 30 (tileSize * tileSize * 4 : Nat), add 26 29 30,
    store 25 26]

/-- The body of the inner loop of the GEMM kernel. -/
def gemmAccumulate : List Instruction :=
  [mul 20 2 10, add 21 20 9, mul 22 21 31, add 23 14 22, load 24 23,
    mul 20 9 10, add 21 20 3, mul 22 21 31, add 23 14 30, add 23 23 22,
    load 25 23,
    mul 26 24 25, add 7 7 26,
    mov 27 1, add 9 9 27]

/--
The inner loop of the GEMM kernel.  It is left where register 9 is the tile
size, and otherwise ends with a jump back to its test.
-/
def gemmInnerLoop : List Instruction :=
  [mov 9 0, cmp 9 10, branch (gemmAccumulate.length + 3)] ++
    gemmAccumulate ++
      [cmp 0 0, branch (-(gemmAccumulate.length + 3))]

/-- One tile of the outer loop, between barriers. -/
def gemmTile (tileSize : Nat) : List Instruction :=
  gemmLoadTiles tileSize ++ [barrier] ++ gemmInnerLoop ++ [barrier]

/--
The outer loop of the GEMM kernel.  It is left where register 8 is `K`, and
otherwise ends with a jump back to its start.
-/
def gemmOuterLoop (tileSize : Nat) : List Instruction :=
  gemmTile tileSize ++
    [add 8 8 10, cmp 8 13, branch 3, cmp 0 0,
      branch (-((gemmTile tileSize).length + 4))]

/-- Each thread stores its cell of `C`. -/
def gemmStore : List Instruction :=
  [mul 20 0 12, add 21 20 1, mul 22 21 31, add 23 17 22, store 7 23]

/-- The tiled matrix product. -/
def generateGemmKernel (_m _n _k tileSize : Nat) : Kernel where
  instructions := gemmProlog ++ gemmOuterLoop tileSize ++ gemmStore
  lengthFits := by
    have size :
        (gemmProlog ++ gemmOuterLoop tileSize ++ gemmStore).length = 55 :=
      rfl
    rw [size]
    decide

/-- At most `fuel` values of a loop that halves its stride down to zero. -/
def halvings : Nat → Nat → List Nat
  | 0, _ => []
  | fuel + 1, stride =>
      if 0 < stride then stride :: halvings fuel (stride / 2) else []

/-- The strides `block_size / 2`, `block_size / 4` and so on, down to one. -/
def strides (blockSize : Nat) : List Nat :=
  halvings (blockSize / 2) (blockSize / 2)

/-- One cell more is added to the cell of each thread whose predicate is set. -/
def reductionRound (stride step : Nat) : List Instruction :=
  guarded (20 + step : Nat)
    [load 10 1, mov 15 (stride * 4 : Nat), add 16 1 15, load 11 16,
      add 12 10 11, store 12 1] ++
    [barrier]

/-- The instructions of the reduction kernel. -/
def reductionInstructions (blockSize : Nat) : List Instruction :=
  [load 10 0, store 10 1, barrier, mov 19 0] ++
    (strides blockSize).zipIdx.flatMap (fun round =>
      reductionRound round.1 round.2) ++
    guarded 3 [load 10 1, store 10 2]

/-- One iteration of the loop that zeroes the bins. -/
def histogramZero (blockSize iter : Nat) : List Instruction :=
  guarded (20 + iter : Nat)
    [mov 15 (iter * blockSize : Nat), add 16 5 15, mul 13 16 12,
      add 14 1 13, store 19 14]

/-- Each active thread counts its element. -/
def histogramCount : List Instruction :=
  guarded 4
    [load 10 0, mov 12 4, mul 13 10 12, add 14 1 13, mov 16 1,
      atomicAdd 16 14]

/-- One iteration of the loop that writes the bins out. -/
def histogramWrite (blockSize iter : Nat) : List Instruction :=
  guarded (20 + iter : Nat)
    [mov 15 (iter * blockSize : Nat), add 16 5 15, mul 13 16 12,
      add 14 1 13, load 17 14, add 18 2 13, store 17 18]

/-- The instructions of the histogram kernel for a number of iterations. -/
def histogramInstructions (blockSize iters : Nat) : List Instruction :=
  [mov 19 0, mov 12 4] ++
    (List.range iters).flatMap (histogramZero blockSize) ++
    [barrier] ++ histogramCount ++ [barrier] ++
    (List.range iters).flatMap (histogramWrite blockSize)

/-- Halving gives no more strides than there is fuel. -/
theorem length_halvings_le
    (fuel stride : Nat) :
    (halvings fuel stride).length ≤ fuel := by
  induction fuel generalizing stride with
  | zero => exact Nat.le_refl 0
  | succ fuel inductionHypothesis =>
      rw [halvings]
      split
      · exact Nat.succ_le_succ (inductionHypothesis _)
      · exact Nat.zero_le _

theorem length_reductionInstructions
    (blockSize : Nat) :
    (reductionInstructions blockSize).length =
      11 * (strides blockSize).length + 10 := by
  simp [reductionInstructions, reductionRound, guarded,
    List.length_flatMap, List.map_const']
  omega

/-- The tree reduction, for an `int` block size. -/
def generateReductionKernel
    (blockSize : Nat)
    (isInt : blockSize < 2 ^ 31) :
    Kernel where
  instructions := reductionInstructions blockSize
  lengthFits := by
    have rounds := length_halvings_le (blockSize / 2) (blockSize / 2)
    rw [length_reductionInstructions, strides]
    omega

theorem length_histogramInstructions
    (blockSize iters : Nat) :
    (histogramInstructions blockSize iters).length = 20 * iters + 14 := by
  simp [histogramInstructions, histogramZero, histogramCount,
    histogramWrite, guarded, List.length_flatMap, List.map_const']
  omega

/-- The number of bins that one thread serves. -/
def histogramIters (numBins blockSize : Nat) : Nat :=
  (numBins + blockSize - 1) / blockSize

/--
The histogram, which has predicate registers for eight iterations; the sum that
counts them is an `int`.
-/
def generateHistogramKernel
    (numBins blockSize : Nat)
    (_isInt : numBins + blockSize < 2 ^ 31) :
    Except SimError Kernel :=
  if tooLarge : 8 < histogramIters numBins blockSize then
    .error .itersTooLarge
  else
    .ok
      { instructions :=
          histogramInstructions blockSize (histogramIters numBins blockSize)
        lengthFits := by
          rw [length_histogramInstructions]
          omega }

/-! ## Grids -/

/-- Write a register before the launch; the value is converted to an `int`. -/
def writeRegister
    (thread : Thread)
    (index value : Nat) :
    Except SimError Thread := do
  let registers ← thread.registers.write index (BitVec.ofNat 32 value)
  pure { thread with registers := registers }

/-- Write registers in order. -/
def writeRegisters
    (thread : Thread)
    (values : List (Nat × Nat)) :
    Except SimError Thread :=
  values.foldlM (fun thread entry => writeRegister thread entry.1 entry.2)
    thread

/-- The warps of a block; only the last one may be partly filled. -/
def buildWarps
    (numThreads warpSize : Nat)
    (buildThread : Nat → Nat → Except SimError Thread) :
    Except SimError (List Warp) :=
  (List.range ((numThreads + warpSize - 1) / warpSize)).mapM fun warpId => do
    let threads ←
      (List.range (min warpSize (numThreads - warpId * warpSize))).mapM
        (buildThread warpId)
    pure (Warp.ofThreads warpId threads)

/-- `0` or `1`. -/
def flag (holds : Bool) : Nat :=
  if holds then 1 else 0

/-- One thread of the GEMM grid. -/
def gemmThread
    (m n k tileSize warpSize blockX blockY block warpId lane : Nat) :
    Except SimError Thread :=
  let localId := warpId * warpSize + lane
  let tileRow := localId / tileSize
  let tileCol := localId % tileSize
  let globalRow := blockY * tileSize + tileRow
  let globalCol := blockX * tileSize + tileCol
  let globalId := globalRow * n + globalCol
  writeRegisters (Thread.new globalId block localId warpId lane)
    [(0, globalRow), (1, globalCol), (2, tileRow), (3, tileCol), (4, block),
      (10, tileSize), (11, m), (12, n), (13, k),
      (14,
        MemorySystem.sharedMemBase + block * (2 * tileSize * tileSize * 4)),
      (15, 0), (16, m * k * 4), (17, m * k * 4 + k * n * 4)]

/-- One block for each tile of `C`, row by row. -/
def buildGemmGrid
    (m n k tileSize warpSize : Nat) :
    Except SimError Grid := do
  let blocksX := n / tileSize
  let blocksY := m / tileSize
  let rows ←
    (List.range blocksY).mapM fun blockY =>
      (List.range blocksX).mapM fun blockX => do
        let block := blockY * blocksX + blockX
        let warps ←
          buildWarps (tileSize * tileSize) warpSize
            (gemmThread m n k tileSize warpSize blockX blockY block)
        pure { blockId := block, warps := warps : ThreadBlock }
  pure { blocks := rows.flatten }

/-- The blocks that elements are divided into; the sum is a `size_t`. -/
def numBlocks (numElements blockSize : Nat) : Nat :=
  if numElements = 0 then
    0
  else
    (numElements + blockSize - 1) % 2 ^ 64 / blockSize

/-- The threads of one of these blocks. -/
def threadsInBlock (numElements blockSize block : Nat) : Nat :=
  min blockSize (numElements - block * blockSize)

/-- A grid of blocks of elements; the priority of a warp is its id. -/
def buildElementGrid
    (numElements blockSize warpSize : Nat)
    (buildThread : Nat → Nat → Nat → Except SimError Thread) :
    Except SimError Grid := do
  let blocks ←
    (List.range (numBlocks numElements blockSize)).mapM fun block => do
      let warps ←
        buildWarps (threadsInBlock numElements blockSize block) warpSize
          (buildThread block)
      pure
        { blockId := block
          warps :=
            warps.map fun warp =>
              { warp with priority := toInt32 warp.warpId } :
          ThreadBlock }
  pure { blocks := blocks }

/-- One thread of the benchmark grid: the addresses of its three cells. -/
def benchmarkThread
    (strided : Bool)
    (blockSize warpSize block warpId lane : Nat) :
    Except SimError Thread :=
  let localId := warpId * warpSize + lane
  let globalId := block * blockSize + localId
  let stride := if strided then 32 else 4
  writeRegisters (Thread.new globalId block localId warpId lane)
    [(0, 0 + globalId * stride), (1, 10000 + globalId * stride),
      (2, 20000 + globalId * stride)]

/-- The grid of the vector benchmarks. -/
def buildBenchmarkGrid
    (numThreads blockSize warpSize : Nat)
    (strided : Bool) :
    Except SimError Grid :=
  buildElementGrid numThreads blockSize warpSize
    (benchmarkThread strided blockSize warpSize)

/-- The number of bytes from the first cell to the first one of a thread. -/
def memcpyOffset (pattern : String) (numThreads globalId : Nat) : Nat :=
  if pattern = "contiguous" then
    globalId * 4
  else if pattern = "strided" then
    globalId * 32
  else if pattern = "random" then
    globalId * 101 % 2 ^ 64 % numThreads * 4
  else
    0

/-- The number of bytes from one cell of a thread to its next one. -/
def memcpyStride (pattern : String) (numThreads : Nat) : Nat :=
  if pattern = "contiguous" then
    numThreads * 4
  else if pattern = "strided" then
    numThreads * 32
  else if pattern = "random" then
    numThreads * 4
  else
    0

/-- One thread of the copy's grid: the addresses to read and to write. -/
def memcpyThread
    (pattern : String)
    (numThreads blockSize warpSize block warpId lane : Nat) :
    Except SimError Thread :=
  let localId := warpId * warpSize + lane
  let globalId := block * blockSize + localId
  let offset := memcpyOffset pattern numThreads globalId
  writeRegisters (Thread.new globalId block localId warpId lane)
    [(0, 0 + offset), (1, 1000000 + offset),
      (2, memcpyStride pattern numThreads)]

/-- The grid of the copy benchmark. -/
def buildMemcpyGrid
    (numThreads blockSize warpSize : Nat)
    (pattern : String) :
    Except SimError Grid :=
  buildElementGrid numThreads blockSize warpSize
    (memcpyThread pattern numThreads blockSize warpSize)

/-- One thread of the histogram grid. -/
def histogramThread
    (numElements blockSize warpSize numBins block warpId lane : Nat) :
    Except SimError Thread :=
  let localId := warpId * warpSize + lane
  let globalId := block * blockSize + localId
  writeRegisters (Thread.new globalId block localId warpId lane)
    ([(0, globalId * 4),
        (1, MemorySystem.sharedMemBase + block * numBins * 4),
        (2, numElements * 4 + block * numBins * 4),
        (3, numBins), (4, flag (globalId < numElements)), (5, localId)] ++
      (List.range 8).map fun iter =>
        (20 + iter, flag (localId + iter * blockSize < numBins)))

/-- The grid of the histogram benchmark. -/
def buildHistogramGrid
    (numElements blockSize warpSize numBins : Nat) :
    Except SimError Grid :=
  buildElementGrid numElements blockSize warpSize
    (histogramThread numElements blockSize warpSize numBins)

/-- One thread of the reduction grid. -/
def reductionThread
    (numElements blockSize warpSize block warpId lane : Nat) :
    Except SimError Thread :=
  let localId := warpId * warpSize + lane
  let globalId := block * blockSize + localId
  writeRegisters (Thread.new globalId block localId warpId lane)
    ([(0, globalId * 4),
        (1,
          MemorySystem.sharedMemBase + block * blockSize * 4 + localId * 4),
        (2, numElements * 4 + block * 4), (3, flag (localId = 0))] ++
      (strides blockSize).zipIdx.map fun round =>
        (20 + round.2, flag (localId < round.1)))

/-- The grid of the reduction benchmark. -/
def buildReductionGrid
    (numElements blockSize warpSize : Nat) :
    Except SimError Grid :=
  buildElementGrid numElements blockSize warpSize
    (reductionThread numElements blockSize warpSize)

end Benchmarks

end SimSm
