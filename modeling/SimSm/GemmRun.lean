import SimSm.Gemm

namespace SimSm

/-!
# Runs of the GEMM benchmark

Between the barriers of a block its two tiles hold the same cells of both
matrices for all threads.  Tile by tile the sum of every thread grows towards
its cell of the product, which is what a run leaves.
-/

open Interleaving Outcome Benchmarks

namespace Gemm

/-! ## Tiles of a block -/

/-- The two matrices in global memory, everything else zeroed. -/
abbrev elements
    (m n k : Nat)
    (left right : Nat → Nat → Word) :
    Nat → Word :=
  GPU.placedWords (numInputs m n k) (matrices m n k left right)

/-- A cell of the first matrix among the cells of both. -/
theorem matrices_left
    {m n k row col : Nat}
    (left right : Nat → Nat → Word)
    (isRow : row < m)
    (isCol : col < k) :
    row * k + col < numInputs m n k ∧
      matrices m n k left right (row * k + col) = left row col := by
  have inside := rowMajor_lt isRow isCol
  obtain ⟨atRow, atCol⟩ := @rowMajor_split k row col isCol
  refine ⟨?_, ?_⟩
  · unfold numInputs
    omega
  · rw [matrices, if_pos inside, atRow, atCol]

/-- A cell of the second matrix among the cells of both. -/
theorem matrices_right
    {m n k row col : Nat}
    (left right : Nat → Nat → Word)
    (isRow : row < k)
    (isCol : col < n) :
    m * k + (row * n + col) < numInputs m n k ∧
      matrices m n k left right (m * k + (row * n + col)) =
        right row col := by
  have inside := rowMajor_lt isRow isCol
  obtain ⟨atRow, atCol⟩ := @rowMajor_split n row col isCol
  have notLeft : ¬ m * k + (row * n + col) < m * k := by
    omega
  refine ⟨?_, ?_⟩
  · unfold numInputs
    omega
  · rw [matrices, if_neg notLeft, Nat.add_sub_cancel_left, atRow, atCol]

/-- Global memory is for a block as it was before the launch. -/
def Fresh
    (m n k tileSize block : Nat)
    (left right : Nat → Nat → Word)
    (memory : Nat → Word) :
    Prop :=
  ∀ address < MemorySystem.sharedMemBase,
    InScope (writer m n k tileSize) block address →
    memory address = GPU.placedView (elements m n k left right) address

/-- The tiles of a block hold cells of both matrices. -/
structure Tiled
    (n tileSize block done : Nat)
    (left right : Nat → Nat → Word)
    (memory : Nat → Word) :
    Prop where
  left :
    ∀ row < tileSize,
      ∀ col < tileSize,
        memory
            (sharedCell (2 * tileSize * tileSize) block
              (row * tileSize + col)) =
          left (block / (n / tileSize) * tileSize + row) (done + col)
  right :
    ∀ row < tileSize,
      ∀ col < tileSize,
        memory
            (sharedCell (2 * tileSize * tileSize) block
              (tileSize * tileSize + (row * tileSize + col))) =
          right (done + row) (block % (n / tileSize) * tileSize + col)

/-- From a pc on, the block leaves the product in its cells. -/
abbrev Completes
    (kernel : Kernel)
    (m n k tileSize warpSize block : Nat)
    (left right : Nat → Nat → Word)
    (pc : Nat)
    (lane : Nat → LaneState)
    (memory : Nat → Word) :
    Prop :=
  Bulk kernel (warpCount warpSize (tileSize * tileSize))
    (InScope (writer m n k tileSize) block)
    (Mine (writer m n k tileSize) block) (goal m n k left right)
    (abreast warpSize (tileSize * tileSize) pc lane) memory

/-- The thread that copies a cell of the tiles. -/
def tileOwner (tileSize index : Nat) : Option Nat :=
  some (index % (tileSize * tileSize))

/-- The thread of its block that computes a cell of the product. -/
def outputOwner (n tileSize index : Nat) : Option Nat :=
  some (index / n % tileSize * tileSize + index % n % tileSize)

section Block

variable {m n k tileSize warpSize block done : Nat}
variable {left right : Nat → Nat → Word}
variable {kernel : Kernel}
variable {pc : Nat}
variable {lane : Nat → LaneState}
variable {memory : Nat → Word}

namespace Setting

/-- The matrices are below shared memory. -/
theorem below
    (setting : Setting m n k tileSize warpSize block) :
    numInputs m n k * 4 ≤ MemorySystem.sharedMemBase := by
  have fits := setting.fits
  omega

/-- The dimensions are small. -/
theorem small
    (setting : Setting m n k tileSize warpSize block) :
    tileSize < 2 ^ 32 ∧ k < 2 ^ 32 := by
  have fits := setting.fits
  have someBlocks := Nat.zero_lt_of_lt setting.isBlock
  have someRows : 0 < m :=
    Nat.pos_of_div_pos (Nat.pos_of_mul_pos_right someBlocks)
  have someCols : 0 < n :=
    Nat.pos_of_div_pos (Nat.pos_of_mul_pos_left someBlocks)
  have tileInside := Nat.le_of_dvd someCols setting.dividesCols
  have cols := Nat.le_mul_of_pos_left n someRows
  have depth := Nat.le_mul_of_pos_right k someCols
  unfold numInputs MemorySystem.sharedMemBase at fits
  omega

/-- The first cell that a thread copies is one of the first matrix. -/
theorem read_left
    (setting : Setting m n k tileSize warpSize block)
    (fresh : Fresh m n k tileSize block left right memory)
    {localId : Nat}
    (isThread : localId < tileSize * tileSize)
    (inside : done + tileSize ≤ k) :
    let address := leftAddress n k tileSize block localId done
    address < numInputs m n k * 4 ∧
      memory address =
        left (row n tileSize block localId)
          (done + localId % tileSize) := by
  dsimp only
  have isCol := (setting.position isThread).2.1
  have isRow := setting.row_lt isThread
  have below := setting.below
  have inMatrix := setting.left_lt isThread inside
  have isInput :
      leftAddress n k tileSize block localId done <
        numInputs m n k * 4 := by
    unfold leftAddress numInputs
    omega
  refine ⟨isInput, ?_⟩
  rw [fresh _ (by omega) (Or.inl (cellWriter_input below isInput)),
    leftAddress, Nat.add_assoc]
  obtain ⟨isInput, value⟩ :=
    @matrices_left m n k _ (done + localId % tileSize) left right isRow
      (by omega)
  exact (GPU.placedView_word below isInput).trans value

/-- The second cell that a thread copies is one of the second matrix. -/
theorem read_right
    (setting : Setting m n k tileSize warpSize block)
    (fresh : Fresh m n k tileSize block left right memory)
    {localId : Nat}
    (isThread : localId < tileSize * tileSize)
    (inside : done + tileSize ≤ k) :
    let address := rightAddress m n k tileSize block localId done
    address < numInputs m n k * 4 ∧
      memory address =
        right (done + localId / tileSize)
          (col n tileSize block localId) := by
  dsimp only
  have isRow := (setting.position isThread).1
  have isCol := setting.col_lt isThread
  have below := setting.below
  have inMatrix := setting.right_lt isThread inside
  have isInput :
      rightAddress m n k tileSize block localId done <
        numInputs m n k * 4 := by
    unfold rightAddress numInputs
    omega
  refine ⟨isInput, ?_⟩
  rw [fresh _ (by omega) (Or.inl (cellWriter_input below isInput)),
    rightAddress, ← Nat.add_mul]
  obtain ⟨isInput, value⟩ :=
    @matrices_right m n k (done + localId / tileSize) _ left right
      (by omega) isCol
  exact (GPU.placedView_word below isInput).trans value

end Setting

/-- A cell of a tile belongs to the thread that copies it. -/
theorem useTile_owned
    {localId : Nat}
    (isThread : localId < tileSize * tileSize) :
    useShared (2 * tileSize * tileSize) (tileOwner tileSize)
          (sharedCell (2 * tileSize * tileSize) block localId) =
        .owned localId ∧
      useShared (2 * tileSize * tileSize) (tileOwner tileSize)
          (sharedCell (2 * tileSize * tileSize) block
            (tileSize * tileSize + localId)) =
        .owned localId := by
  obtain ⟨leftTile, rightTile⟩ := @Setting.tile_lt tileSize _ isThread
  constructor
  · rw [useShared_cell leftTile, tileOwner, Nat.mod_eq_of_lt isThread]
    rfl
  · rw [useShared_cell rightTile, tileOwner, Nat.add_mod_left,
      Nat.mod_eq_of_lt isThread]
    rfl

/-- Cells of tiles belong to their block. -/
theorem tileScope
    {index : Nat}
    (inside : index < 2 * tileSize * tileSize) :
    InScope (writer m n k tileSize) block
      (sharedCell (2 * tileSize * tileSize) block index) :=
  Or.inr (cellWriter_shared inside)

/-- The tiles are filled by their threads. -/
theorem Tiled.of_loaded
    (setting : Setting m n k tileSize warpSize block)
    (fresh : Fresh m n k tileSize block left right memory)
    (inside : done + tileSize ≤ k)
    {own : Nat → OwnLane}
    {sum : Nat → Word}
    (loaded :
      ∀ localId < tileSize * tileSize,
        Loaded m n k tileSize block localId done (sum localId) memory
          (own localId))
    {later : Nat → Word}
    (collected :
      Collected (tileSize * tileSize)
        (useShared (2 * tileSize * tileSize) (tileOwner tileSize))
        (InScope (writer m n k tileSize) block) memory
        (fun localId => (own localId).memory) later) :
    Tiled n tileSize block done left right later where
  left tileRow isRow tileCol isCol := by
    have isThread := rowMajor_lt isRow isCol
    obtain ⟨atRow, atCol⟩ := @rowMajor_split tileSize tileRow tileCol isCol
    obtain ⟨leftTile, rightTile⟩ := @Setting.tile_lt tileSize _ isThread
    have apart :
        sharedCell (2 * tileSize * tileSize) block
            (tileRow * tileSize + tileCol) ≠
          sharedCell (2 * tileSize * tileSize) block
            (tileSize * tileSize + (tileRow * tileSize + tileCol)) := by
      intro same
      have index := sharedCell_injective same
      omega
    rw [collected.owned _ isThread _ (tileScope leftTile)
        (useTile_owned isThread).1,
      (loaded _ isThread).copied, Function.update_of_ne apart,
      Function.update_self, (setting.read_left fresh isThread inside).2,
      row, atRow, atCol]
  right tileRow isRow tileCol isCol := by
    have isThread := rowMajor_lt isRow isCol
    obtain ⟨atRow, atCol⟩ := @rowMajor_split tileSize tileRow tileCol isCol
    obtain ⟨leftTile, rightTile⟩ := @Setting.tile_lt tileSize _ isThread
    rw [collected.owned _ isThread _ (tileScope rightTile)
        (useTile_owned isThread).2,
      (loaded _ isThread).copied, Function.update_self,
      (setting.read_right fresh isThread inside).2, col, atRow, atCol]

/-- A phase in which the threads copy the next tiles. -/
theorem fillsTiles
    (setting : Setting m n k tileSize warpSize block)
    (laid : Laid kernel tileSize)
    (fresh : Fresh m n k tileSize block left right memory)
    (inside : done + tileSize ≤ k)
    {requires : OwnLane → Prop}
    {transform : OwnLane → OwnLane}
    {sum : Nat → Word}
    (does : OwnPaths.Does kernel pc 23 requires transform)
    (meets :
      ∀ localId < tileSize * tileSize,
        requires ⟨lane localId, memory, []⟩)
    (loaded :
      ∀ localId < tileSize * tileSize,
        Loaded m n k tileSize block localId done (sum localId) memory
          (transform ⟨lane localId, memory, []⟩))
    (goesOn :
      ∀ later : Nat → Word,
        Fresh m n k tileSize block left right later →
        Tiled n tileSize block done left right later →
        Completes kernel m n k tileSize warpSize block left right 24
          (fun localId => (transform ⟨lane localId, memory, []⟩).lane)
          later) :
    Completes kernel m n k tileSize warpSize block left right pc lane
      memory := by
  have below := setting.below
  refine
    @Bulk.toBarrier kernel warpSize _ _ 23 _ _ _ _
      (useShared (2 * tileSize * tileSize) (tileOwner tileSize)) _ _ lane
      setting.someLanes setting.narrow does ?_ laid.barrier meets ?_ ?_ ?_
  · rw [laid.size]
    decide
  · intro localId isThread access accessed
    obtain ⟨ownsLeft, ownsRight⟩ :=
      @useTile_owned tileSize block _ isThread
    obtain ⟨leftTile, rightTile⟩ := @Setting.tile_lt tileSize _ isThread
    have leftInput := (setting.read_left fresh isThread inside).1
    have rightInput := (setting.read_right fresh isThread inside).1
    rw [(loaded localId isThread).touched] at accessed
    simp only [List.mem_cons, List.not_mem_nil, or_false] at accessed
    rcases accessed with rfl | rfl | rfl | rfl
    · exact
        Use.allowed_load (useShared_below (by omega))
          (Or.inl (cellWriter_input below leftInput))
    · exact Use.allowed_owned ownsLeft (tileScope leftTile)
    · exact
        Use.allowed_load (useShared_below (by omega))
          (Or.inl (cellWriter_input below rightInput))
    · exact Use.allowed_owned ownsRight (tileScope rightTile)
  · intro address inScope notMine
    exact useShared_below (input_of_notMine inScope notMine).1
  · intro later collected
    refine
      goesOn later (fun address isGlobal inScope => ?_)
        (.of_loaded setting fresh inside loaded collected)
    rw [collected.readOnly address inScope (useShared_below isGlobal)]
    exact fresh address isGlobal inScope

/-- What a turn of the inner loop adds is a product of the matrices. -/
theorem Tiled.term
    (setting : Setting m n k tileSize warpSize block)
    (tiled : Tiled n tileSize block done left right memory)
    {localId index : Nat}
    (isThread : localId < tileSize * tileSize)
    (inside : index < tileSize) :
    Gemm.term tileSize block localId index memory =
      left (row n tileSize block localId) (done + index) *
        right (done + index) (col n tileSize block localId) := by
  obtain ⟨isRow, isCol, _⟩ := setting.position isThread
  rw [Gemm.term, tiled.left _ isRow _ inside,
    tiled.right _ inside _ isCol]
  rfl

/-- A phase in which the threads add the products of the tiles up. -/
theorem addsProducts
    (setting : Setting m n k tileSize warpSize block)
    (laid : Laid kernel tileSize)
    (fresh : Fresh m n k tileSize block left right memory)
    (tiled : Tiled n tileSize block done left right memory)
    (ready :
      ∀ localId < tileSize * tileSize,
        Ready m n k tileSize block localId done
          (product done left right (row n tileSize block localId)
            (col n tileSize block localId))
          (lane localId))
    (offset :
      ∀ localId < tileSize * tileSize,
        (lane localId).read 30 =
          BitVec.ofNat 32 (tileSize * tileSize * 4))
    (goesOn :
      ∀ laterLane : Nat → LaneState,
        ∀ later : Nat → Word,
          (∀ localId < tileSize * tileSize,
            Ready m n k tileSize block localId done
              (product (done + tileSize) left right
                (row n tileSize block localId)
                (col n tileSize block localId))
              (laterLane localId)) →
          Fresh m n k tileSize block left right later →
          Completes kernel m n k tileSize warpSize block left right 45
            laterLane later) :
    Completes kernel m n k tileSize warpSize block left right 24 lane
      memory := by
  have multiplied
      {localId : Nat}
      (isThread : localId < tileSize * tileSize) :=
    @multiply_ready m n k tileSize warpSize block localId done _
      ⟨lane localId, memory, []⟩ setting (ready localId isThread)
      (offset localId isThread) rfl isThread
  refine
    @Bulk.toBarrier kernel warpSize _ _ 44 _ _ _ _ (fun _ => .readOnly) _
      _ lane setting.someLanes setting.narrow
      (laid.multiplies setting.small.1) ?_ laid.secondBarrier
      (fun localId isThread => (ready localId isThread).size) ?_
      (fun _ _ _ => rfl) ?_
  · rw [laid.size]
    decide
  · intro localId isThread access accessed
    obtain ⟨index, inside, rfl⟩ :=
      (multiplied isThread).2 access accessed
    exact Use.allowed_load rfl (tileScope inside)
  · intro later collected
    refine goesOn _ later (fun localId isThread => ?_) ?_
    · have sum :
          product (done + tileSize) left right
              (row n tileSize block localId)
              (col n tileSize block localId) =
            product done left right (row n tileSize block localId)
                (col n tileSize block localId) +
              ∑ index ∈ Finset.range tileSize,
                term tileSize block localId index memory := by
        rw [product, Finset.sum_range_add]
        congr 1
        refine Finset.sum_congr rfl fun index member => ?_
        exact
          (tiled.term setting isThread (Finset.mem_range.mp member)).symm
      rw [sum]
      exact (multiplied isThread).1
    · intro address isGlobal inScope
      rw [collected.readOnly address inScope rfl]
      exact fresh address isGlobal inScope

/-- A cell of the product of a block belongs to the thread that computes it. -/
theorem output_of_thread
    (setting : Setting m n k tileSize warpSize block)
    {localId : Nat}
    (isThread : localId < tileSize * tileSize) :
    let index :=
      row n tileSize block localId * n + col n tileSize block localId
    numInputs m n k * 4 + index * 4 < MemorySystem.sharedMemBase ∧
      outputBlock n tileSize index = block ∧
        outputOwner n tileSize index = some localId := by
  dsimp only
  have fits := setting.fits
  have isCol := setting.col_lt isThread
  have inside := rowMajor_lt (setting.row_lt isThread) isCol
  obtain ⟨atRow, atCol⟩ :=
    @rowMajor_split n (row n tileSize block localId) _ isCol
  obtain ⟨isTileRow, isTileCol, position⟩ := setting.position isThread
  obtain ⟨blockRow, tileRow⟩ :=
    @rowMajor_split tileSize (block / (n / tileSize)) _ isTileRow
  obtain ⟨blockCol, tileCol⟩ :=
    @rowMajor_split tileSize (block % (n / tileSize)) _ isTileCol
  refine ⟨by omega, ?_, ?_⟩
  · rw [outputBlock, atRow, atCol, row, col, blockRow, blockCol,
      Nat.div_add_mod']
  · rw [outputOwner, atRow, atCol, row, col, tileRow, tileCol, position]

/-- Every cell of the product of a block has such a thread. -/
theorem thread_of_output
    (setting : Setting m n k tileSize warpSize block)
    {index : Nat}
    (isMine : outputBlock n tileSize index = block) :
    ∃ localId < tileSize * tileSize,
      row n tileSize block localId = index / n ∧
        col n tileSize block localId = index % n := by
  have someCols : 0 < n :=
    Nat.pos_of_div_pos
      (Nat.pos_of_mul_pos_left (Nat.zero_lt_of_lt setting.isBlock))
  have isCol : index % n / tileSize < n / tileSize := by
    rw [Nat.div_lt_iff_lt_mul setting.someTile,
      Nat.div_mul_cancel setting.dividesCols]
    exact Nat.mod_lt _ someCols
  have isTileRow := Nat.mod_lt (index / n) setting.someTile
  have isTileCol := Nat.mod_lt (index % n) setting.someTile
  obtain ⟨blockRow, blockCol⟩ :=
    @rowMajor_split (n / tileSize) (index / n / tileSize) _ isCol
  obtain ⟨tileRow, tileCol⟩ :=
    @rowMajor_split tileSize (index / n % tileSize) _ isTileCol
  change
    index / n / tileSize * (n / tileSize) + index % n / tileSize = block
    at isMine
  rw [isMine] at blockRow blockCol
  refine
    ⟨index / n % tileSize * tileSize + index % n % tileSize,
      rowMajor_lt isTileRow isTileCol, ?_, ?_⟩
  · rw [row, blockRow, tileRow, Nat.div_add_mod']
  · rw [col, blockCol, tileCol, Nat.div_add_mod']

/-- The last phase: the threads write their sums out. -/
theorem writesOut
    (setting : Setting m n k tileSize warpSize block)
    (laid : Laid kernel tileSize)
    (fresh : Fresh m n k tileSize block left right memory)
    (isLast : done + tileSize = k)
    (ready :
      ∀ localId < tileSize * tileSize,
        Ready m n k tileSize block localId done
          (product k left right (row n tileSize block localId)
            (col n tileSize block localId))
          (lane localId)) :
    Completes kernel m n k tileSize warpSize block left right 45 lane
      memory := by
  have written
      {localId : Nat}
      (isThread : localId < tileSize * tileSize) :=
    @finish_writes m n k tileSize warpSize block localId done _
      ⟨lane localId, memory, []⟩ setting (ready localId isThread) isThread
  refine
    @Bulk.toEnd kernel warpSize _ _ _ _ _ _
      (useOutput (numInputs m n k) (outputOwner n tileSize)) _ _ lane
      setting.someLanes setting.narrow laid.finishes ?_ ?_ ?_ ?_
  · intro localId isThread
    have registers := ready localId isThread
    dsimp only
    rw [registers.reached, registers.size, registers.depth,
      ← BitVec.ofNat_add, isLast]
  · intro localId isThread access accessed
    obtain ⟨below, isMine, isOwner⟩ := output_of_thread setting isThread
    rw [(written isThread).2] at accessed
    rw [List.mem_singleton.mp accessed]
    refine Use.allowed_owned ?_ (Or.inr ?_)
    · exact
        (useOutput_cell below).trans (congrArg ownedBy isOwner)
    · exact (cellWriter_output below).trans (congrArg some isMine)
  · intro address inScope notMine
    exact useOutput_input (input_of_notMine inScope notMine).2
  · intro final collected address isGlobal isMine
    have below := isGlobal_iff.mp isGlobal
    obtain ⟨above, ofBlock⟩ := output_of_mine isGlobal isMine
    unfold goal
    dsimp only
    split
    · rename_i aligned
      obtain ⟨localId, isThread, atRow, atCol⟩ :=
        thread_of_output setting ofBlock
      obtain ⟨cellBelow, _, isOwner⟩ := output_of_thread setting isThread
      have isCell :
          address =
            numInputs m n k * 4 +
              (row n tileSize block localId * n +
                  col n tileSize block localId) *
                4 := by
        rw [atRow, atCol, Nat.div_add_mod']
        omega
      have declared :
          useOutput (numInputs m n k) (outputOwner n tileSize) address =
            .owned localId := by
        rw [isCell, useOutput_cell cellBelow, isOwner]
        rfl
      rw [collected.owned localId isThread _ (Or.inr isMine) declared,
        (written isThread).1, ← atRow, ← atCol, isCell]
      exact Function.update_self ..
    · rename_i notAligned
      rw [collected.readOnly address (Or.inr isMine)
          (if_neg fun isOutput => notAligned isOutput.2.2),
        fresh address below (Or.inr isMine), GPU.placedView_rest above]

/-- The tiles that are left, one by one, and the writing after them. -/
theorem goesThrough
    (setting : Setting m n k tileSize warpSize block)
    (laid : Laid kernel tileSize)
    {tilesLeft : Nat}
    (reaches : done + (tilesLeft + 1) * tileSize = k)
    (fresh : Fresh m n k tileSize block left right memory)
    (tiled : Tiled n tileSize block done left right memory)
    (ready :
      ∀ localId < tileSize * tileSize,
        Ready m n k tileSize block localId done
          (product done left right (row n tileSize block localId)
            (col n tileSize block localId))
          (lane localId))
    (offset :
      ∀ localId < tileSize * tileSize,
        (lane localId).read 30 =
          BitVec.ofNat 32 (tileSize * tileSize * 4)) :
    Completes kernel m n k tileSize warpSize block left right 24 lane
      memory := by
  induction tilesLeft generalizing done lane memory with
  | zero =>
      have isLast : done + tileSize = k := by
        rwa [Nat.zero_add, Nat.one_mul] at reaches
      refine
        addsProducts setting laid fresh tiled ready offset
          fun laterLane later laterReady laterFresh =>
            writesOut setting laid laterFresh isLast ?_
      rwa [isLast] at laterReady
  | succ tilesLeft inductionHypothesis =>
      have shape :
          done + tileSize + (tilesLeft + 1) * tileSize = k := by
        rw [← reaches, Nat.succ_mul (tilesLeft + 1)]
        omega
      have inside : done + tileSize + tileSize ≤ k := by
        rw [← shape, Nat.succ_mul]
        omega
      refine
        addsProducts setting laid fresh tiled ready offset
          fun laterLane later laterReady laterFresh => ?_
      have loaded
          (localId : Nat)
          (isThread : localId < tileSize * tileSize) :=
        @proceed_loaded m n k tileSize warpSize block localId done _
          ⟨laterLane localId, later, []⟩ setting
          (laterReady localId isThread) rfl isThread inside
      refine
        fillsTiles setting laid laterFresh inside laid.proceeds
          (fun localId isThread => ?_) loaded
          fun final finalFresh finalTiled =>
            inductionHypothesis shape finalFresh finalTiled
              (fun localId isThread => (loaded localId isThread).ready)
              fun localId isThread => (loaded localId isThread).offset
      have registers := laterReady localId isThread
      have small := setting.small.2
      have positive := setting.someTile
      dsimp only
      rw [registers.reached, registers.size, registers.depth,
        ← BitVec.ofNat_add]
      intro same
      have values := congrArg BitVec.toNat same
      rw [BitVec.toNat_ofNat, BitVec.toNat_ofNat, Nat.mod_eq_of_lt small,
        Nat.mod_eq_of_lt (by omega)] at values
      omega

/-- A block starts with the first tiles. -/
theorem starts
    (setting : Setting m n k tileSize warpSize block)
    (laid : Laid kernel tileSize)
    (someDepth : 0 < k)
    (registers :
      ∀ localId < tileSize * tileSize,
        Registers m n k tileSize block localId (lane localId))
    (fresh : Fresh m n k tileSize block left right memory) :
    Completes kernel m n k tileSize warpSize block left right 0 lane
      memory := by
  obtain ⟨tiles, isTiles⟩ := setting.dividesDepth
  obtain ⟨tilesLeft, rfl⟩ : ∃ rest, tiles = rest + 1 := by
    refine Nat.exists_eq_add_one.mpr (Nat.pos_of_ne_zero fun none => ?_)
    rw [none, Nat.mul_zero] at isTiles
    omega
  have reaches : 0 + (tilesLeft + 1) * tileSize = k := by
    rw [Nat.zero_add, isTiles, Nat.mul_comm]
  have inside : 0 + tileSize ≤ k := by
    rw [← reaches, Nat.succ_mul]
    omega
  have loaded
      (localId : Nat)
      (isThread : localId < tileSize * tileSize) :=
    @enter_loaded m n k tileSize warpSize block localId
      ⟨lane localId, memory, []⟩ setting (registers localId isThread) rfl
      isThread inside
  exact
    fillsTiles setting laid fresh inside laid.enters (fun _ _ => trivial)
      loaded fun later laterFresh tiled =>
        goesThrough setting laid reaches laterFresh tiled
          (fun localId isThread => (loaded localId isThread).ready)
          fun localId isThread => (loaded localId isThread).offset

end Block

/-! ## The grid -/

/-- The threads of a block, whose number gives the tile of the product. -/
abbrev blockThread
    (m n k tileSize warpSize block : Nat) :
    Nat → Nat → Except SimError Thread :=
  gemmThread m n k tileSize warpSize (block % (n / tileSize))
    (block / (n / tileSize)) block

/-- The GEMM grid has one built block for each tile of the product. -/
theorem buildGemmGrid_blocks
    {m n k tileSize warpSize : Nat}
    {grid : Grid}
    (someTile : 0 < tileSize)
    (ran : buildGemmGrid m n k tileSize warpSize = .ok grid) :
    grid.blocks.map ThreadBlock.blockId =
        List.range (m / tileSize * (n / tileSize)) ∧
      ∀ block ∈ grid.blocks,
        IsBuilt warpSize (fun _ => tileSize * tileSize)
          (blockThread m n k tileSize warpSize) block := by
  obtain ⟨rows, each, returned⟩ := except_bind_ok.mp ran
  cases returned
  have built := except_mapM_ok.mp each
  have oneByOne
      {blockY blockX : Nat}
      {block : ThreadBlock}
      (isBuilt :
        (do
          let warps ←
            buildWarps (tileSize * tileSize) warpSize
              (gemmThread m n k tileSize warpSize blockX blockY
                (blockY * (n / tileSize) + blockX))
          pure
            { blockId := blockY * (n / tileSize) + blockX
              warps := warps :
              ThreadBlock } :
          Except SimError ThreadBlock) =
        .ok block) :
      block.blockId = blockY * (n / tileSize) + blockX ∧
        ∃ warps,
          buildWarps (tileSize * tileSize) warpSize
                (gemmThread m n k tileSize warpSize blockX blockY
                  block.blockId) =
              .ok warps ∧
            block.warps = warps := by
    obtain ⟨warps, warpsBuilt, returned⟩ := except_bind_ok.mp isBuilt
    cases returned
    exact ⟨rfl, warps, warpsBuilt, rfl⟩
  constructor
  · have ids :
        rows.map (List.map ThreadBlock.blockId) =
          (List.range (m / tileSize)).map
            (Chunks.chunk (n / tileSize)
              (m / tileSize * (n / tileSize))) := by
      refine
        Pointwise.map_eq_range
          (built.length_eq.symm.trans List.length_range)
          @fun blockY _ found => ?_
      obtain ⟨inside, rowBuilt⟩ := Pointwise.origin_range built found
      have rowIds := except_mapM_ok.mp rowBuilt
      have full :
          min (n / tileSize)
              (m / tileSize * (n / tileSize) - blockY * (n / tileSize)) =
            n / tileSize := by
        have rowInside :
            (blockY + 1) * (n / tileSize) ≤
              m / tileSize * (n / tileSize) :=
          Nat.mul_le_mul_right _ inside
        rw [Nat.succ_mul] at rowInside
        omega
      rw [Chunks.chunk, full]
      exact
        Pointwise.map_eq_range
          (rowIds.length_eq.symm.trans List.length_range) fun isBlock =>
            (oneByOne (Pointwise.origin_range rowIds isBlock).2).1
    rw [List.map_flatten, ids, ← List.flatMap_def, Chunks.flatMap_chunk,
      Nat.min_self]
  · intro block member
    obtain ⟨blocks, isRow, inRow⟩ := List.mem_flatten.mp member
    obtain ⟨blockY, foundRow⟩ := List.mem_iff_getElem?.mp isRow
    obtain ⟨_, rowBuilt⟩ := Pointwise.origin_range built foundRow
    obtain ⟨blockX, found⟩ := List.mem_iff_getElem?.mp inRow
    obtain ⟨inside, isBuilt⟩ :=
      Pointwise.origin_range (except_mapM_ok.mp rowBuilt) found
    obtain ⟨isId, warps, warpsBuilt, rfl⟩ := oneByOne isBuilt
    obtain ⟨atRow, atCol⟩ := @rowMajor_split _ blockY _ inside
    rw [← isId] at atRow atCol
    refine
      ⟨Nat.mul_pos someTile someTile, block.warps, fun warp => warp, ?_,
        (List.map_id' _).symm, fun warp => ⟨_, rfl⟩⟩
    rw [blockThread, atRow, atCol]
    exact warpsBuilt

/-- The threads of the GEMM grid belong to their blocks. -/
theorem blockThread_blockId
    {m n k tileSize warpSize block warpId lane : Nat}
    {thread : Thread}
    (built :
      blockThread m n k tileSize warpSize block warpId lane = .ok thread) :
    thread.blockId = block :=
  writeRegisters_blockId built

/-- A thread of the GEMM grid starts with these registers. -/
theorem builtLane_registers
    {m n k tileSize warpSize block localId : Nat}
    (positive : 0 < warpSize)
    {warps : List Warp}
    (ran :
      buildWarps (tileSize * tileSize) warpSize
          (blockThread m n k tileSize warpSize block) =
        .ok warps)
    (inside : localId < tileSize * tileSize) :
    Registers m n k tileSize block localId
      (builtLane warpSize (blockThread m n k tileSize warpSize block)
        localId) := by
  obtain ⟨thread, isBuilt⟩ := buildWarps_thread positive ran inside
  obtain ⟨_, _, split⟩ := lane_of_thread positive inside
  rw [builtLane, isBuilt]
  change Registers m n k tileSize block localId thread.lane
  unfold blockThread gemmThread at isBuilt
  dsimp only at isBuilt
  rw [split] at isBuilt
  have reads
      {index value : Nat}
      (member :
        (index, value) ∈
          [(0, row n tileSize block localId),
            (1, col n tileSize block localId), (2, localId / tileSize),
            (3, localId % tileSize), (4, block), (10, tileSize), (11, m),
            (12, n), (13, k),
            (14,
              MemorySystem.sharedMemBase +
                block * (2 * tileSize * tileSize * 4)),
            (15, 0), (16, m * k * 4), (17, m * k * 4 + k * n * 4)]) :
      thread.lane.read index = BitVec.ofNat 32 value :=
    @writeRegisters_read _ _ _
      [0, 1, 2, 3, 4, 10, 11, 12, 13, 14, 15, 16, 17] rfl (by decide)
      (by decide) isBuilt _ _ member
  refine
    ⟨reads (by simp), reads (by simp), reads (by simp), reads (by simp),
      reads (by simp), reads (by simp), reads (by simp), reads ?_,
      reads (by simp), reads (by simp), reads ?_⟩
  · have cell :
        sharedCell (2 * tileSize * tileSize) block 0 =
          MemorySystem.sharedMemBase +
            block * (2 * tileSize * tileSize * 4) := by
      rw [sharedCell, Nat.zero_mul, Nat.add_zero, Nat.mul_assoc]
    simp [cell]
  · have base : numInputs m n k * 4 = m * k * 4 + k * n * 4 :=
      Nat.add_mul ..
    simp [base]

/-! ## Runs -/

/-- The goal in a cell of the product is that product. -/
theorem goal_cell
    {m n k row col : Nat}
    {left right : Nat → Nat → Word}
    (isCol : col < n) :
    goal m n k left right
        (numInputs m n k * 4 + (row * n + col) * 4) =
      product k left right row col := by
  obtain ⟨atRow, atCol⟩ := @rowMajor_split n row col isCol
  have aligned :
      (numInputs m n k * 4 + (row * n + col) * 4 - numInputs m n k * 4) %
          4 =
        0 := by
    omega
  have index :
      (numInputs m n k * 4 + (row * n + col) * 4 - numInputs m n k * 4) /
          4 =
        row * n + col := by
    omega
  unfold goal
  dsimp only
  rw [if_pos aligned, index, atRow, atCol]

section Runs

variable {σ : Type}
variable [WarpScheduler σ]
variable [LawfulWarpScheduler σ]
variable {m n k tileSize warpSize : Nat}
variable {left right : Nat → Nat → Word}
variable {grid : Grid}
variable {config launchConfig : SystemConfig}
variable {createScheduler : SystemConfig → Except SimError σ}
variable {rng : Nat → Nat → Nat → Nat}
variable {gpu after : GPU σ}
variable {req : KernelResourceRequirements}
variable {fuel : Nat}

/-- What a run leaves in the cells that nobody writes and in the others. -/
theorem final_cells
    (someTile : 0 < tileSize)
    (dividesRows : tileSize ∣ m)
    (dividesCols : tileSize ∣ n)
    (dividesDepth : tileSize ∣ k)
    (someDepth : 0 < k)
    (someLanes : 0 < warpSize)
    (narrow : warpSize ≤ 32)
    (fits : numInputs m n k * 4 + m * n * 4 ≤ MemorySystem.sharedMemBase)
    (built : buildGemmGrid m n k tileSize warpSize = .ok grid)
    (fresh : GPU.new config createScheduler rng = .ok gpu)
    (hasSms : 0 < config.numSms)
    (ran :
      (gpu.place (elements m n k left right)).launchAndRun grid launchConfig
          req (generateGemmKernel m n k tileSize) fuel =
        some (.ok after))
    {address : Nat}
    (below : address < MemorySystem.sharedMemBase) :
    (address < numInputs m n k * 4 →
        after.globalMemory.data address =
          elements m n k left right address) ∧
      ∀ block < m / tileSize * (n / tileSize),
        Mine (writer m n k tileSize) block address →
        after.globalMemory.data address = goal m n k left right address := by
  obtain ⟨ids, blocks⟩ := buildGemmGrid_blocks someTile built
  have isId (block : Nat) :
      block < m / tileSize * (n / tileSize) ↔
        ∃ other ∈ grid.blocks, other.blockId = block := by
    rw [← List.mem_range, ← ids, List.mem_map]
  obtain ⟨unwritten, written⟩ :=
    GPU.built_correct someLanes narrow
      (by rw [(laid_generated m n k tileSize).size]; decide)
      (by rw [ids]; exact List.nodup_range) blocks
      (fun _ _ _ _ isBuilt => blockThread_blockId isBuilt)
      (fun block member memory agrees => by
        have setting :
            Setting m n k tileSize warpSize block.blockId :=
          ⟨someTile, dividesRows, dividesCols, dividesDepth, someLanes,
            narrow, (isId _).mpr ⟨block, member, rfl⟩, fits⟩
        obtain ⟨warps, _, warpsBuilt, _⟩ := (blocks block member).warps
        exact
          starts setting (laid_generated m n k tileSize) someDepth
            (fun localId isThread =>
              builtLane_registers someLanes warpsBuilt isThread)
            fun address _ inScope => agrees address inScope)
      fresh hasSms ran (isGlobal_iff.mpr below)
  refine ⟨fun isInput => unwritten ?_, fun block isBlock isMine => ?_⟩
  · exact cellWriter_input (by omega) isInput
  · obtain ⟨other, member, rfl⟩ := (isId block).mp isBlock
    exact written other member isMine

/--
A run of the benchmark leaves the product of the matrices in its cells, and the
matrices as they were.
-/
theorem gemm_correct
    (someTile : 0 < tileSize)
    (someDepth : 0 < k)
    (dividesRows : tileSize ∣ m)
    (dividesCols : tileSize ∣ n)
    (dividesDepth : tileSize ∣ k)
    (someLanes : 0 < warpSize)
    (narrow : warpSize ≤ 32)
    (fits : 4 * (m * k + k * n + m * n) ≤ MemorySystem.sharedMemBase)
    (built : buildGemmGrid m n k tileSize warpSize = .ok grid)
    (fresh : GPU.new config createScheduler rng = .ok gpu)
    (hasSms : 0 < config.numSms)
    (ran :
      (gpu.place (elements m n k left right)).launchAndRun grid launchConfig
          ⟨32, 2 * tileSize * tileSize * 4⟩
          (generateGemmKernel m n k tileSize) fuel =
        some (.ok after)) :
    (∀ row < m,
        ∀ col < n,
          after.globalMemory.data
              (4 * (m * k + k * n + row * n + col)) =
            ∑ index ∈ Finset.range k, left row index * right index col) ∧
      (∀ row < m,
          ∀ col < k,
            after.globalMemory.data (4 * (row * k + col)) =
              left row col) ∧
        ∀ row < k,
          ∀ col < n,
            after.globalMemory.data (4 * (m * k + row * n + col)) =
              right row col := by
  have fits : numInputs m n k * 4 + m * n * 4 ≤ MemorySystem.sharedMemBase := by
    unfold numInputs
    omega
  have final {address : Nat} :=
    @final_cells σ _ _ m n k tileSize warpSize left right grid config
      launchConfig createScheduler rng gpu after _ fuel someTile dividesRows
      dividesCols dividesDepth someDepth someLanes narrow fits built fresh
      hasSms ran address
  refine
    ⟨fun row isRow col isCol => ?_, fun row isRow col isCol => ?_,
      fun row isRow col isCol => ?_⟩
  · have inside := rowMajor_lt isRow isCol
    have isCell :
        4 * (m * k + k * n + row * n + col) =
          numInputs m n k * 4 + (row * n + col) * 4 := by
      unfold numInputs
      omega
    have below :
        numInputs m n k * 4 + (row * n + col) * 4 <
          MemorySystem.sharedMemBase := by
      omega
    have isBlock :
        outputBlock n tileSize (row * n + col) <
          m / tileSize * (n / tileSize) := by
      obtain ⟨atRow, atCol⟩ := @rowMajor_split n row col isCol
      rw [outputBlock, atRow, atCol]
      exact
        rowMajor_lt (Nat.div_lt_div_of_lt_of_dvd dividesRows isRow)
          (Nat.div_lt_div_of_lt_of_dvd dividesCols isCol)
    rw [isCell, (final below).2 _ isBlock (cellWriter_output below),
      goal_cell isCol]
    rfl
  · obtain ⟨isInput, value⟩ :=
      @matrices_left m n k row col left right isRow isCol
    rw [Nat.mul_comm 4, (final (by omega)).1 (by omega), ← value]
    exact GPU.placedWords_word isInput
  · obtain ⟨isInput, value⟩ :=
      @matrices_right m n k row col left right isRow isCol
    rw [Nat.mul_comm 4, Nat.add_assoc, (final (by omega)).1 (by omega),
      ← value]
    exact GPU.placedWords_word isInput

end Runs

/-! ## A run on one multiprocessor -/

/-- One multiprocessor with room for one block of four threads. -/
def tiny : SystemConfig where
  numSms := 1
  warpSize := 2
  blockSize := 4
  maxThreadsPerSm := 4
  maxBlocksPerSm := 1
  maxSharedMemoryPerSm := 32
  maxRegistersPerSm := 128
  maxWarpsPerSm := 2
  l1Sets := 1
  l1Associativity := 1
  l1LineSize := 4
  l2Sets := 1
  l2Associativity := 1
  l2LineSize := 4
  l1Latency := 1
  l2Latency := 1
  globalMemoryLatency := 1
  writebackLatency := 0
  sharedMemoryBanks := 1
  globalMemorySize := 48

/-- A matrix whose cells are numbered from one on. -/
def numbered (row col : Nat) : Word :=
  BitVec.ofNat 32 (2 * row + col + 1)

/-- A run on it that squares this matrix. -/
def TinyRun (after : GPU Scheduler) : Prop :=
  ∃ grid gpu,
    buildGemmGrid 2 2 2 2 2 = .ok grid ∧
      GPU.new tiny (fun _ => .ok Scheduler.greedy) (fun _ _ _ => 0) =
        .ok gpu ∧
      (gpu.place (elements 2 2 2 numbered numbered)).launchAndRun grid tiny
          ⟨32, 2 * 2 * 2 * 4⟩ (generateGemmKernel 2 2 2 2) 400 =
        some (.ok after)

/-- Whether this run returns normally. -/
def returns : Bool :=
  match buildGemmGrid 2 2 2 2 2,
    GPU.new tiny (fun _ => .ok Scheduler.greedy) (fun _ _ _ => 0) with
  | .ok grid, .ok gpu =>
      ((gpu.place (elements 2 2 2 numbered numbered)).launchAndRun grid
          tiny ⟨32, 2 * 2 * 2 * 4⟩ (generateGemmKernel 2 2 2 2) 400).any
        Except.isOk
  | _, _ => false

theorem exists_tinyRun
    (isOk : returns = true) :
    ∃ after, TinyRun after := by
  unfold returns at isOk
  split at isOk
  · rename_i grid gpu built fresh
    obtain ⟨after, ran⟩ := option_any_isOk isOk
    exact ⟨after, grid, gpu, built, fresh, ran⟩
  · cases isOk

/-- The last cell of the square is right. -/
theorem gemm_correct_numbered :
    ∃ after,
      TinyRun after ∧
        after.globalMemory.data (4 * (2 * 2 + 2 * 2 + 1 * 2 + 1)) = 22 := by
  obtain ⟨after, run⟩ := exists_tinyRun (by decide +kernel)
  refine ⟨after, run, ?_⟩
  obtain ⟨grid, gpu, built, fresh, ran⟩ := run
  have correct :=
    @gemm_correct Scheduler _ _ 2 2 2 2 2 numbered numbered grid tiny tiny _
      _ gpu after 400 (by decide) (by decide) (by decide) (by decide)
      (by decide) (by decide) (by decide) (by decide) built fresh
      (by decide) ran
  exact (correct.1 1 (by decide) 1 (by decide)).trans (by decide)

end Gemm

end SimSm
