import SimSm.ThreadPhases

namespace SimSm

/-!
# The GEMM kernel

A block computes one tile of the product.  For each tile of the inner dimension
its threads copy one cell each of both matrices to shared memory, wait, and add
up the products of a row and a column of the copies.
-/

open Interleaving Outcome Benchmarks

namespace Gemm

/-! ## Cells and registers -/

/-- The row of the product that a thread computes. -/
def row (n tileSize block localId : Nat) : Nat :=
  block / (n / tileSize) * tileSize + localId / tileSize

/-- The column of the product that a thread computes. -/
def col (n tileSize block localId : Nat) : Nat :=
  block % (n / tileSize) * tileSize + localId % tileSize

/-- The cells of the two matrices that are multiplied. -/
def numInputs (m n k : Nat) : Nat :=
  m * k + k * n

/-- The two matrices, row by row and one after the other. -/
def matrices
    (m n k : Nat)
    (left right : Nat → Nat → Word)
    (index : Nat) :
    Word :=
  if index < m * k then
    left (index / k) (index % k)
  else
    right ((index - m * k) / n) ((index - m * k) % n)

/-- The block that computes a cell of the product. -/
def outputBlock (n tileSize index : Nat) : Nat :=
  index / n / tileSize * (n / tileSize) + index % n / tileSize

/-- The block that writes to a cell. -/
abbrev writer (m n k tileSize : Nat) : Nat → Option Nat :=
  cellWriter (numInputs m n k) (2 * tileSize * tileSize)
    (outputBlock n tileSize)

/-- A cell of the product. -/
def product
    (k : Nat)
    (left right : Nat → Nat → Word)
    (row col : Nat) :
    Word :=
  ∑ index ∈ Finset.range k, left row index * right index col

/-- What the kernel leaves in the cells of the product. -/
def goal
    (m n k : Nat)
    (left right : Nat → Nat → Word)
    (address : Nat) :
    Word :=
  let index := (address - numInputs m n k * 4) / 4
  if (address - numInputs m n k * 4) % 4 = 0 then
    product k left right (index / n) (index % n)
  else
    0

/-- The registers that the grid gives to a thread. -/
structure Registers
    (m n k tileSize block localId : Nat)
    (lane : LaneState) :
    Prop where
  row : lane.read 0 = BitVec.ofNat 32 (row n tileSize block localId)
  col : lane.read 1 = BitVec.ofNat 32 (col n tileSize block localId)
  tileRow : lane.read 2 = BitVec.ofNat 32 (localId / tileSize)
  tileCol : lane.read 3 = BitVec.ofNat 32 (localId % tileSize)
  size : lane.read 10 = BitVec.ofNat 32 tileSize
  width : lane.read 12 = BitVec.ofNat 32 n
  depth : lane.read 13 = BitVec.ofNat 32 k
  tiles :
    lane.read 14 =
      BitVec.ofNat 32 (sharedCell (2 * tileSize * tileSize) block 0)
  left : lane.read 15 = BitVec.ofNat 32 0
  right : lane.read 16 = BitVec.ofNat 32 (m * k * 4)
  output : lane.read 17 = BitVec.ofNat 32 (numInputs m n k * 4)

/-- The registers of a thread some way along the inner dimension. -/
structure Ready
    (m n k tileSize block localId done : Nat)
    (sum : Word)
    (lane : LaneState) :
    Prop extends
    Registers m n k tileSize block localId lane where
  four : lane.read 31 = BitVec.ofNat 32 4
  reached : lane.read 8 = BitVec.ofNat 32 done
  total : lane.read 7 = sum

/-- What a block of the GEMM grid runs with. -/
structure Setting
    (m n k tileSize warpSize block : Nat) :
    Prop where
  someTile : 0 < tileSize
  dividesRows : tileSize ∣ m
  dividesCols : tileSize ∣ n
  dividesDepth : tileSize ∣ k
  someLanes : 0 < warpSize
  narrow : warpSize ≤ 32
  isBlock : block < m / tileSize * (n / tileSize)
  fits : numInputs m n k * 4 + m * n * 4 ≤ MemorySystem.sharedMemBase

/-- A cell of a matrix, row by row. -/
theorem rowMajor_lt
    {rows cols row col : Nat}
    (isRow : row < rows)
    (isCol : col < cols) :
    row * cols + col < rows * cols := by
  calc
    row * cols + col < row * cols + cols := Nat.add_lt_add_left isCol _
    _ = (row + 1) * cols := (Nat.succ_mul row cols).symm
    _ ≤ rows * cols := Nat.mul_le_mul_right _ isRow

/-- The row and the column of a cell of a matrix. -/
theorem rowMajor_split
    {cols row col : Nat}
    (isCol : col < cols) :
    (row * cols + col) / cols = row ∧ (row * cols + col) % cols = col := by
  have positive : 0 < cols := Nat.zero_lt_of_lt isCol
  constructor
  · rw [Nat.mul_comm, Nat.mul_add_div positive, Nat.div_eq_of_lt isCol,
      Nat.add_zero]
  · rw [Nat.mul_comm, Nat.mul_add_mod, Nat.mod_eq_of_lt isCol]

namespace Setting

variable {m n k tileSize warpSize block localId : Nat}

/-- The position of a thread in its tile. -/
theorem position
    (setting : Setting m n k tileSize warpSize block)
    (isThread : localId < tileSize * tileSize) :
    localId / tileSize < tileSize ∧ localId % tileSize < tileSize ∧
      localId / tileSize * tileSize + localId % tileSize = localId :=
  ⟨Nat.div_lt_of_lt_mul isThread, Nat.mod_lt _ setting.someTile,
    Nat.div_add_mod' _ _⟩

/-- The position of a block in the grid of tiles. -/
theorem blockPosition
    (setting : Setting m n k tileSize warpSize block) :
    block / (n / tileSize) < m / tileSize ∧
      block % (n / tileSize) < n / tileSize := by
  have isBlock := setting.isBlock
  have some : 0 < n / tileSize :=
    Nat.pos_of_mul_pos_left (Nat.zero_lt_of_lt isBlock)
  exact
    ⟨(Nat.div_lt_iff_lt_mul some).mpr isBlock, Nat.mod_lt _ some⟩

theorem row_lt
    (setting : Setting m n k tileSize warpSize block)
    (isThread : localId < tileSize * tileSize) :
    row n tileSize block localId < m := by
  have inside :=
    rowMajor_lt setting.blockPosition.1 (setting.position isThread).1
  rwa [Nat.div_mul_cancel setting.dividesRows] at inside

theorem col_lt
    (setting : Setting m n k tileSize warpSize block)
    (isThread : localId < tileSize * tileSize) :
    col n tileSize block localId < n := by
  have inside :=
    rowMajor_lt setting.blockPosition.2 (setting.position isThread).2.1
  rwa [Nat.div_mul_cancel setting.dividesCols] at inside

/-- Addresses of cells of the tiles are small. -/
theorem pointer_tile
    (setting : Setting m n k tileSize warpSize block)
    {index : Nat}
    (inside : index < 2 * tileSize * tileSize) :
    LaneState.pointer
        (BitVec.ofNat 32
          (sharedCell (2 * tileSize * tileSize) block index)) =
      sharedCell (2 * tileSize * tileSize) block index := by
  have fits := setting.fits
  have blocks :
      (block + 1) * (tileSize * tileSize) ≤ m * n := by
    calc
      (block + 1) * (tileSize * tileSize) ≤
          m / tileSize * (n / tileSize) * (tileSize * tileSize) :=
        Nat.mul_le_mul_right _ setting.isBlock
      _ = m / tileSize * tileSize * (n / tileSize * tileSize) :=
        Nat.mul_mul_mul_comm ..
      _ = m * n := by
        rw [Nat.div_mul_cancel setting.dividesRows,
          Nat.div_mul_cancel setting.dividesCols]
  have shape :
      block * (2 * tileSize * tileSize) =
        2 * (block * (tileSize * tileSize)) := by
    rw [Nat.mul_assoc, Nat.mul_left_comm]
  rw [Nat.succ_mul] at blocks
  rw [Nat.mul_assoc] at inside
  apply LaneState.pointer_ofNat
  unfold sharedCell
  rw [shape]
  unfold MemorySystem.sharedMemBase at fits ⊢
  omega

/-- A thread has cells of both tiles. -/
theorem tile_lt
    (isThread : localId < tileSize * tileSize) :
    localId < 2 * tileSize * tileSize ∧
      tileSize * tileSize + localId < 2 * tileSize * tileSize := by
  have twice : 2 * tileSize * tileSize = 2 * (tileSize * tileSize) :=
    Nat.mul_assoc ..
  omega

/-- The cells of the first matrix that a thread copies. -/
theorem left_lt
    (setting : Setting m n k tileSize warpSize block)
    (isThread : localId < tileSize * tileSize)
    {done : Nat}
    (inside : done + tileSize ≤ k) :
    row n tileSize block localId * k + done + localId % tileSize <
      m * k := by
  have isCol := (setting.position isThread).2.1
  rw [Nat.add_assoc]
  exact rowMajor_lt (setting.row_lt isThread) (by omega)

/-- The cells of the second matrix that a thread copies. -/
theorem right_lt
    (setting : Setting m n k tileSize warpSize block)
    (isThread : localId < tileSize * tileSize)
    {done : Nat}
    (inside : done + tileSize ≤ k) :
    (done + localId / tileSize) * n + col n tileSize block localId <
      k * n := by
  have isRow := (setting.position isThread).1
  exact rowMajor_lt (by omega) (setting.col_lt isThread)

end Setting

/-! ## The bodies of the kernel, thread by thread -/

/-- The registers that the grid gives and the kernel never writes. -/
def Fixed (register : Int) : Prop :=
  0 ≤ register ∧ register ≤ 3 ∨ 10 ≤ register ∧ register ≤ 17

instance (register : Int) : Decidable (Fixed register) :=
  inferInstanceAs (Decidable (_ ∨ _))

/-- The registers that the kernel keeps for a short time only. -/
def Scratch (register : Int) : Prop :=
  register = -1 ∨ 20 ≤ register ∧ register ≤ 30

instance (register : Int) : Decidable (Scratch register) :=
  inferInstanceAs (Decidable (_ ∨ _))

section Bodies

variable {m n k tileSize warpSize block localId done : Nat}
variable {sum : Word}
variable {lane other : LaneState}
variable {own : OwnLane}
variable {code : List Instruction}

theorem Registers.congr
    (registers : Registers m n k tileSize block localId lane)
    (same :
      ∀ register : Int,
        RegisterOperand register →
        Fixed register →
        other.read register = lane.read register) :
    Registers m n k tileSize block localId other where
  row := by rw [same 0 (by decide) (by decide), registers.row]
  col := by rw [same 1 (by decide) (by decide), registers.col]
  tileRow := by rw [same 2 (by decide) (by decide), registers.tileRow]
  tileCol := by rw [same 3 (by decide) (by decide), registers.tileCol]
  size := by rw [same 10 (by decide) (by decide), registers.size]
  width := by rw [same 12 (by decide) (by decide), registers.width]
  depth := by rw [same 13 (by decide) (by decide), registers.depth]
  tiles := by rw [same 14 (by decide) (by decide), registers.tiles]
  left := by rw [same 15 (by decide) (by decide), registers.left]
  right := by rw [same 16 (by decide) (by decide), registers.right]
  output := by rw [same 17 (by decide) (by decide), registers.output]

/-- Code that writes none of these registers keeps them. -/
theorem Registers.executeAll
    (registers : Registers m n k tileSize block localId own.lane)
    (spares :
      ∀ inst ∈ code,
        (-1 ≤ inst.dst ∧ inst.dst < 32) ∧ ¬ Fixed inst.dst) :
    Registers m n k tileSize block localId (own.executeAll code).lane := by
  refine registers.congr fun register valid isFixed => ?_
  refine OwnLane.read_executeAll valid (fun inst member => ?_) own
  obtain ⟨inRange, notFixed⟩ := spares inst member
  exact ⟨inRange, fun isDst => notFixed (isDst ▸ isFixed)⟩

/-- Code that computes in scratch registers keeps all others. -/
theorem read_executeScratch
    (scratch : ∀ inst ∈ code, Scratch inst.dst)
    {register : Int}
    (valid : RegisterOperand register)
    (notScratch : ¬ Scratch register) :
    (own.executeAll code).lane.read register = own.lane.read register := by
  refine OwnLane.read_executeAll valid (fun inst member => ?_) own
  have isScratch := scratch inst member
  refine ⟨?_, fun isDst => notScratch (isDst ▸ isScratch)⟩
  unfold Scratch at isScratch
  omega

theorem Ready.executeScratch
    (ready : Ready m n k tileSize block localId done sum own.lane)
    (scratch : ∀ inst ∈ code, Scratch inst.dst) :
    Ready m n k tileSize block localId done sum
      (own.executeAll code).lane where
  toRegisters := by
    refine ready.toRegisters.congr fun register valid isFixed => ?_
    refine read_executeScratch scratch valid ?_
    unfold Fixed at isFixed
    unfold Scratch
    omega
  four := by
    rw [read_executeScratch scratch (by decide) (by decide), ready.four]
  reached := by
    rw [read_executeScratch scratch (by decide) (by decide), ready.reached]
  total := by
    rw [read_executeScratch scratch (by decide) (by decide), ready.total]

theorem loadTiles_scratch (tileSize : Nat) :
    ∀ inst ∈ gemmLoadTiles tileSize, Scratch inst.dst := by
  simp [gemmLoadTiles, mov, add, mul, load, store, Scratch]

theorem loadTiles_straight (tileSize : Nat) :
    ∀ inst ∈ gemmLoadTiles tileSize, inst.Straight := by
  simp [gemmLoadTiles, mov, add, mul, load, store, Instruction.Straight,
    Opcode.isControl]

/-- The cells that a thread copies, in the tiles and in the matrices. -/
def leftAddress (n k tileSize block localId done : Nat) : Nat :=
  (row n tileSize block localId * k + done + localId % tileSize) * 4

def rightAddress (m n k tileSize block localId done : Nat) : Nat :=
  m * k * 4 +
    ((done + localId / tileSize) * n + col n tileSize block localId) * 4

/-- A thread copies one cell each of both matrices. -/
theorem loadTiles_ready
    (setting : Setting m n k tileSize warpSize block)
    (ready : Ready m n k tileSize block localId done sum own.lane)
    (isThread : localId < tileSize * tileSize)
    (inside : done + tileSize ≤ k) :
    let left := leftAddress n k tileSize block localId done
    let right := rightAddress m n k tileSize block localId done
    let leftCell := sharedCell (2 * tileSize * tileSize) block localId
    let rightCell :=
      sharedCell (2 * tileSize * tileSize) block
        (tileSize * tileSize + localId)
    let after := own.executeAll (gemmLoadTiles tileSize)
    (after.memory =
          Function.update
            (Function.update own.memory leftCell (own.memory left))
            rightCell (own.memory right) ∧
        after.touched =
          own.touched ++ [.load left] ++
              [.store leftCell (own.memory left)] ++
            [.load right] ++ [.store rightCell (own.memory right)]) ∧
      after.lane.read 30 =
        BitVec.ofNat 32 (tileSize * tileSize * 4) := by
  dsimp only
  have fits := setting.fits
  have leftInside := setting.left_lt isThread inside
  have rightInside := setting.right_lt isThread inside
  obtain ⟨leftTile, rightTile⟩ := @Setting.tile_lt tileSize _ isThread
  unfold numInputs at fits
  have leftPointer :
      LaneState.pointer
          (BitVec.ofNat 32
            (0 +
              (row n tileSize block localId * k + done +
                  localId % tileSize) *
                4)) =
        leftAddress n k tileSize block localId done := by
    rw [Nat.zero_add, LaneState.pointer_ofNat]
    · rfl
    · unfold MemorySystem.sharedMemBase at fits
      omega
  have rightPointer :
      LaneState.pointer
          (BitVec.ofNat 32
            (m * k * 4 +
              ((done + localId / tileSize) * n +
                  col n tileSize block localId) *
                4)) =
        rightAddress m n k tileSize block localId done := by
    rw [LaneState.pointer_ofNat]
    · rfl
    · unfold MemorySystem.sharedMemBase at fits
      omega
  have leftCellPointer :
      LaneState.pointer
          (BitVec.ofNat 32
            (sharedCell (2 * tileSize * tileSize) block 0 +
              (localId / tileSize * tileSize + localId % tileSize) * 4)) =
        sharedCell (2 * tileSize * tileSize) block localId := by
    rw [(setting.position isThread).2.2, sharedCell_add, Nat.add_zero,
      setting.pointer_tile leftTile]
  have rightCellPointer :
      LaneState.pointer
          (BitVec.ofNat 32
            (sharedCell (2 * tileSize * tileSize) block 0 +
                (localId / tileSize * tileSize + localId % tileSize) * 4 +
              tileSize * tileSize * 4)) =
        sharedCell (2 * tileSize * tileSize) block
          (tileSize * tileSize + localId) := by
    rw [(setting.position isThread).2.2, sharedCell_add, Nat.add_zero,
      sharedCell_add, setting.pointer_tile rightTile]
  have elsewhere :
      rightAddress m n k tileSize block localId done ≠
        sharedCell (2 * tileSize * tileSize) block localId := by
    unfold rightAddress sharedCell
    omega
  have registers := ready.toRegisters
  rw [gemmLoadTiles]
  simp (disch := decide) only [OwnLane.executeAll_cons,
    OwnLane.executeAll_nil, OwnLane.execute_mov, OwnLane.execute_add,
    OwnLane.execute_mul, OwnLane.execute_load, OwnLane.execute_store,
    LaneState.read_write, registers.row, registers.col, registers.tileRow,
    registers.tileCol, registers.size, registers.width, registers.depth,
    registers.tiles, registers.left, registers.right, ready.four,
    ready.reached, BitVec.ofInt_natCast, ← BitVec.ofNat_add,
    ← BitVec.ofNat_mul, if_pos, if_neg, Int.reduceEq, leftPointer,
    rightPointer, leftCellPointer, rightCellPointer,
    Function.update_of_ne elsewhere, and_self]

/-- The registers of a thread in the inner loop. -/
structure Counting
    (m n k tileSize block localId done count : Nat)
    (sum : Word)
    (lane : LaneState) :
    Prop extends
    Ready m n k tileSize block localId done sum lane where
  counter : lane.read 9 = BitVec.ofNat 32 count
  offset : lane.read 30 = BitVec.ofNat 32 (tileSize * tileSize * 4)

theorem accumulate_straight : ∀ inst ∈ gemmAccumulate, inst.Straight := by
  decide

/-- The product that a turn of the inner loop adds. -/
def term
    (tileSize block localId count : Nat)
    (memory : Nat → Word) :
    Word :=
  memory
      (sharedCell (2 * tileSize * tileSize) block
        (localId / tileSize * tileSize + count)) *
    memory
      (sharedCell (2 * tileSize * tileSize) block
        (tileSize * tileSize + (count * tileSize + localId % tileSize)))

/-- One cell each of both tiles is multiplied, and the product added. -/
theorem accumulate_counting
    {count : Nat}
    (setting : Setting m n k tileSize warpSize block)
    (counting :
      Counting m n k tileSize block localId done count sum own.lane)
    (isThread : localId < tileSize * tileSize)
    (inside : count < tileSize) :
    let left :=
      sharedCell (2 * tileSize * tileSize) block
        (localId / tileSize * tileSize + count)
    let right :=
      sharedCell (2 * tileSize * tileSize) block
        (tileSize * tileSize + (count * tileSize + localId % tileSize))
    let after := own.executeAll gemmAccumulate
    Counting m n k tileSize block localId done (count + 1)
        (sum + term tileSize block localId count own.memory) after.lane ∧
      after.memory = own.memory ∧
        after.touched = own.touched ++ [.load left] ++ [.load right] := by
  dsimp only
  obtain ⟨isRow, isCol, _⟩ := setting.position isThread
  have leftTile := (@Setting.tile_lt tileSize _ (rowMajor_lt isRow inside)).1
  have rightTile :=
    (@Setting.tile_lt tileSize _ (rowMajor_lt inside isCol)).2
  have leftPointer :
      LaneState.pointer
          (BitVec.ofNat 32
            (sharedCell (2 * tileSize * tileSize) block 0 +
              (localId / tileSize * tileSize + count) * 4)) =
        sharedCell (2 * tileSize * tileSize) block
          (localId / tileSize * tileSize + count) := by
    rw [sharedCell_add, Nat.add_zero, setting.pointer_tile leftTile]
  have rightPointer :
      LaneState.pointer
          (BitVec.ofNat 32
            (sharedCell (2 * tileSize * tileSize) block 0 +
                tileSize * tileSize * 4 +
              (count * tileSize + localId % tileSize) * 4)) =
        sharedCell (2 * tileSize * tileSize) block
          (tileSize * tileSize +
            (count * tileSize + localId % tileSize)) := by
    rw [sharedCell_add, sharedCell_add, Nat.add_zero,
      Nat.add_comm _ (tileSize * tileSize), setting.pointer_tile rightTile]
  have one : BitVec.ofInt 32 1 = BitVec.ofNat 32 1 := by decide
  have registers := counting.toRegisters
  have spares :
      ∀ inst ∈ gemmAccumulate,
        (-1 ≤ inst.dst ∧ inst.dst < 32) ∧ ¬ Fixed inst.dst := by
    decide
  have result :
      ((own.executeAll gemmAccumulate).lane.read 31 = BitVec.ofNat 32 4 ∧
        (own.executeAll gemmAccumulate).lane.read 8 =
            BitVec.ofNat 32 done ∧
          (own.executeAll gemmAccumulate).lane.read 7 =
              sum + term tileSize block localId count own.memory ∧
            (own.executeAll gemmAccumulate).lane.read 9 =
                BitVec.ofNat 32 (count + 1) ∧
              (own.executeAll gemmAccumulate).lane.read 30 =
                BitVec.ofNat 32 (tileSize * tileSize * 4)) ∧
        (own.executeAll gemmAccumulate).memory = own.memory ∧
          (own.executeAll gemmAccumulate).touched =
            own.touched ++
                [.load
                  (sharedCell (2 * tileSize * tileSize) block
                    (localId / tileSize * tileSize + count))] ++
              [.load
                (sharedCell (2 * tileSize * tileSize) block
                  (tileSize * tileSize +
                    (count * tileSize + localId % tileSize)))] := by
    rw [gemmAccumulate]
    simp (disch := decide) only [OwnLane.executeAll_cons,
      OwnLane.executeAll_nil, OwnLane.execute_mov, OwnLane.execute_add,
      OwnLane.execute_mul, OwnLane.execute_load, LaneState.read_write,
      registers.tileRow, registers.tileCol, registers.size,
      registers.tiles, counting.four, counting.reached, counting.total,
      counting.counter, counting.offset, one, ← BitVec.ofNat_add,
      ← BitVec.ofNat_mul, if_pos, if_neg, Int.reduceEq, leftPointer,
      rightPointer, term, and_self]
  obtain ⟨⟨four, reached, total, counter, offset⟩, rest⟩ := result
  exact
    ⟨⟨⟨registers.executeAll spares, four, reached, total⟩, counter, offset⟩,
      rest⟩

end Bodies

/-! ## The code -/

/-- What a thread does before the first barrier. -/
def enter (tileSize : Nat) (own : OwnLane) : OwnLane :=
  (own.executeAll gemmProlog).executeAll (gemmLoadTiles tileSize)

/-- A turn of the inner loop. -/
def innerTurn (own : OwnLane) : OwnLane :=
  ((own.executeAll [cmp 9 10]).executeAll gemmAccumulate).executeAll
    [cmp 0 0]

/-- What a thread does between the two barriers of a tile. -/
def multiply (tileSize : Nat) (own : OwnLane) : OwnLane :=
  (innerTurn^[tileSize] (own.executeAll [mov 9 0])).executeAll [cmp 9 10]

/-- The step to the next tile and the test whether there is one. -/
def advance (own : OwnLane) : OwnLane :=
  own.executeAll [add 8 8 10, cmp 8 13]

/-- What a thread does after a tile that is not the last one. -/
def proceed (tileSize : Nat) (own : OwnLane) : OwnLane :=
  ((advance own).executeAll [cmp 0 0]).executeAll (gemmLoadTiles tileSize)

/-- What a thread does after the last tile. -/
def finish (own : OwnLane) : OwnLane :=
  (advance own).executeAll gemmStore

/-- Where the pieces of the kernel are. -/
structure Laid (kernel : Kernel) (tileSize : Nat) : Prop where
  size : kernel.size = 55
  prolog : kernel.Holds 0 gemmProlog
  load : kernel.Holds 3 (gemmLoadTiles tileSize)
  barrier : kernel.fetch? 23 = some Benchmarks.barrier
  zero : kernel.Holds 24 [mov 9 0]
  test : kernel.Holds 25 [cmp 9 10]
  leave : kernel.fetch? 26 = some (branch 18)
  accumulate : kernel.Holds 27 gemmAccumulate
  always : kernel.Holds 42 [cmp 0 0]
  back : kernel.fetch? 43 = some (branch (-18))
  secondBarrier : kernel.fetch? 44 = some Benchmarks.barrier
  step : kernel.Holds 45 [add 8 8 10, cmp 8 13]
  leaveOuter : kernel.fetch? 47 = some (branch 3)
  alwaysOuter : kernel.Holds 48 [cmp 0 0]
  backOuter : kernel.fetch? 49 = some (branch (-46))
  store : kernel.Holds 50 gemmStore

/-- The generated kernel has its pieces there. -/
theorem laid_generated
    (m n k tileSize : Nat) :
    Laid (generateGemmKernel m n k tileSize) tileSize where
  size := rfl
  prolog := Kernel.holds_of_drop rfl
  load := Kernel.holds_of_drop rfl
  barrier := rfl
  zero := Kernel.holds_of_drop rfl
  test := Kernel.holds_of_drop rfl
  leave := rfl
  accumulate := Kernel.holds_of_drop rfl
  always := Kernel.holds_of_drop rfl
  back := rfl
  secondBarrier := rfl
  step := Kernel.holds_of_drop rfl
  leaveOuter := rfl
  alwaysOuter := Kernel.holds_of_drop rfl
  backOuter := rfl
  store := Kernel.holds_of_drop rfl

/-- A lane whose counter is some turns away from the tile size. -/
def TurnsLeft (tileSize left : Nat) (own : OwnLane) : Prop :=
  ∃ count,
    count + left = tileSize ∧
      own.lane.read 9 = BitVec.ofNat 32 count ∧
        own.lane.read 10 = BitVec.ofNat 32 tileSize

/-- What a comparison of two registers finds. -/
theorem predicate_cmp
    (src1 src2 : Int)
    (own : OwnLane) :
    (own.executeAll [cmp src1 src2]).lane.predicate =
      (own.lane.read src1 == own.lane.read src2) := by
  rw [OwnLane.executeAll_cons, OwnLane.executeAll_nil, OwnLane.execute_cmp]

/-- The test before the next tile compares the new place with the depth. -/
theorem predicate_advance
    (own : OwnLane) :
    (advance own).lane.predicate =
      (own.lane.read 8 + own.lane.read 10 == own.lane.read 13) := by
  rw [advance]
  simp (disch := decide) only [OwnLane.executeAll_cons,
    OwnLane.executeAll_nil, OwnLane.execute_add, OwnLane.execute_cmp,
    LaneState.read_write, if_pos, if_neg, Int.reduceEq]

/-- A turn counts, and keeps the tile size. -/
theorem TurnsLeft.turn
    {tileSize left : Nat}
    {own : OwnLane}
    (turnsLeft : TurnsLeft tileSize (left + 1) own) :
    TurnsLeft tileSize left (innerTurn own) := by
  obtain ⟨count, isCount, counter, size⟩ := turnsLeft
  have one : BitVec.ofInt 32 1 = BitVec.ofNat 32 1 := by decide
  refine ⟨count + 1, by omega, ?_, ?_⟩
  · rw [innerTurn, gemmAccumulate]
    simp (disch := decide) only [OwnLane.executeAll_cons,
      OwnLane.executeAll_nil, OwnLane.execute_cmp, OwnLane.execute_mov,
      OwnLane.execute_add, OwnLane.execute_mul, OwnLane.execute_load,
      LaneState.read_write, LaneState.read_predicate, counter, one,
      ← BitVec.ofNat_add, if_pos, if_neg, Int.reduceEq]
  · have kept (code : List Instruction) (before : OwnLane)
        (spares :
          ∀ inst ∈ code,
            (-1 ≤ inst.dst ∧ inst.dst < 32) ∧ inst.dst ≠ 10) :
        (before.executeAll code).lane.read 10 = before.lane.read 10 :=
      OwnLane.read_executeAll (by decide) spares before
    rw [innerTurn, kept _ _ (by decide), kept _ _ (by decide),
      kept _ _ (by decide), size]

/-- A jump after a comparison that always succeeds. -/
theorem jumps_always
    {kernel : Kernel}
    {start finish : Nat}
    {distance : Int}
    (holds : kernel.Holds start [cmp 0 0])
    (fetched : kernel.fetch? (start + 1) = some (branch distance))
    (exact : ((start + 1 : Nat) : Int) + distance = (finish : Int))
    (inRange : finish < 2 ^ 64) :
    OwnPaths.Does kernel start finish (fun _ => True)
      (OwnLane.executeAll [cmp 0 0]) := by
  have compares :
      OwnPaths.Does kernel start (start + 1) (fun _ => True)
        (OwnLane.executeAll [cmp 0 0]) :=
    OwnPaths.Does.straight holds (by decide)
  refine
    compares.trans (OwnPaths.Does.jumps fetched exact inRange)
      fun own _ => ?_
  rw [predicate_cmp, beq_self_eq_true]

namespace Laid

variable {kernel : Kernel}
variable {tileSize : Nat}

/-- The copying of the next tiles. -/
theorem loads
    (laid : Laid kernel tileSize) :
    OwnPaths.Does kernel 3 23 (fun _ => True)
      (OwnLane.executeAll (gemmLoadTiles tileSize)) :=
  OwnPaths.Does.straight laid.load (loadTiles_straight tileSize)

/-- The code before the first barrier. -/
theorem enters
    (laid : Laid kernel tileSize) :
    OwnPaths.Does kernel 0 23 (fun _ => True) (enter tileSize) := by
  have prolog :
      OwnPaths.Does kernel 0 3 (fun _ => True)
        (OwnLane.executeAll gemmProlog) :=
    OwnPaths.Does.straight laid.prolog (by decide)
  exact prolog.trans laid.loads fun _ _ => trivial

/-- A turn of the inner loop leads back to its test. -/
theorem turns
    (laid : Laid kernel tileSize)
    (small : tileSize < 2 ^ 32)
    (left : Nat) :
    OwnPaths.Does kernel 25 25 (TurnsLeft tileSize (left + 1))
      innerTurn := by
  have tests :
      OwnPaths.Does kernel 25 26 (TurnsLeft tileSize (left + 1))
        (OwnLane.executeAll [cmp 9 10]) :=
    OwnPaths.Does.straight laid.test (by decide)
  have stays :
      OwnPaths.Does kernel 26 27 (fun own => own.lane.predicate = false)
        fun own => own :=
    @OwnPaths.Does.falls kernel 26 44 18 laid.leave (by decide) (by decide)
  have adds :
      OwnPaths.Does kernel 27 42 (fun _ => True)
        (OwnLane.executeAll gemmAccumulate) :=
    OwnPaths.Does.straight laid.accumulate accumulate_straight
  have goesBack :
      OwnPaths.Does kernel 42 25 (fun _ => True)
        (OwnLane.executeAll [cmp 0 0]) :=
    jumps_always laid.always laid.back (by decide) (by decide)
  have enters :
      OwnPaths.Does kernel 25 27 (TurnsLeft tileSize (left + 1))
        (OwnLane.executeAll [cmp 9 10]) := by
    refine tests.trans stays ?_
    rintro own ⟨count, isCount, counter, size⟩
    have notYet : BitVec.ofNat 32 count ≠ BitVec.ofNat 32 tileSize := by
      intro same
      have values := congrArg BitVec.toNat same
      rw [BitVec.toNat_ofNat, BitVec.toNat_ofNat,
        Nat.mod_eq_of_lt small, Nat.mod_eq_of_lt (by omega)] at values
      omega
    rw [predicate_cmp, counter, size, beq_false_of_ne notYet]
  have all :=
    (enters.trans adds fun _ _ => trivial).trans goesBack
      fun _ _ => trivial
  exact all

/-- The inner loop is left when all turns are made. -/
theorem leaves
    (laid : Laid kernel tileSize) :
    OwnPaths.Does kernel 25 44 (TurnsLeft tileSize 0)
      (OwnLane.executeAll [cmp 9 10]) := by
  have tests :
      OwnPaths.Does kernel 25 26 (TurnsLeft tileSize 0)
        (OwnLane.executeAll [cmp 9 10]) :=
    OwnPaths.Does.straight laid.test (by decide)
  have jumps :
      OwnPaths.Does kernel 26 44 (fun own => own.lane.predicate = true)
        fun own => own :=
    @OwnPaths.Does.jumps kernel 26 44 18 laid.leave (by decide) (by decide)
  refine tests.trans jumps ?_
  rintro own ⟨count, rfl, counter, size⟩
  rw [predicate_cmp, counter, size, Nat.add_zero, beq_self_eq_true]

/-- The code between the two barriers of a tile. -/
theorem multiplies
    (laid : Laid kernel tileSize)
    (small : tileSize < 2 ^ 32) :
    OwnPaths.Does kernel 24 44
      (fun own => own.lane.read 10 = BitVec.ofNat 32 tileSize)
      (multiply tileSize) := by
  have zero :
      OwnPaths.Does kernel 24 25
        (fun own => own.lane.read 10 = BitVec.ofNat 32 tileSize)
        (OwnLane.executeAll [mov 9 0]) :=
    OwnPaths.Does.straight laid.zero (by decide)
  have loop :=
    OwnPaths.Does.turns (laid.turns small) laid.leaves
      (fun _ _ turnsLeft => turnsLeft.turn) tileSize
  refine zero.trans loop fun own size => ⟨0, Nat.zero_add _, ?_, ?_⟩
  · simp (disch := decide) only [OwnLane.executeAll_cons,
      OwnLane.executeAll_nil, OwnLane.execute_mov, LaneState.read_write,
      if_pos]
    rfl
  · simp (disch := decide) only [OwnLane.executeAll_cons,
      OwnLane.executeAll_nil, OwnLane.execute_mov, LaneState.read_write,
      if_neg, Int.reduceEq, size]

/-- The code after a tile that is not the last one. -/
theorem proceeds
    (laid : Laid kernel tileSize) :
    OwnPaths.Does kernel 45 23
      (fun own =>
        own.lane.read 8 + own.lane.read 10 ≠ own.lane.read 13)
      (proceed tileSize) := by
  have advances :
      OwnPaths.Does kernel 45 47
        (fun own =>
          own.lane.read 8 + own.lane.read 10 ≠ own.lane.read 13)
        advance :=
    OwnPaths.Does.straight laid.step (by decide)
  have stays :
      OwnPaths.Does kernel 47 48 (fun own => own.lane.predicate = false)
        fun own => own :=
    @OwnPaths.Does.falls kernel 47 50 3 laid.leaveOuter (by decide)
      (by decide)
  have goesBack :
      OwnPaths.Does kernel 48 3 (fun _ => True)
        (OwnLane.executeAll [cmp 0 0]) :=
    jumps_always laid.alwaysOuter laid.backOuter (by decide) (by decide)
  refine
    ((advances.trans stays ?_).trans goesBack fun _ _ => trivial).trans
      laid.loads fun _ _ => trivial
  intro own notLast
  rw [predicate_advance, beq_false_of_ne notLast]

/-- The code after the last tile. -/
theorem finishes
    (laid : Laid kernel tileSize) :
    OwnPaths.Does kernel 45 kernel.size
      (fun own =>
        own.lane.read 8 + own.lane.read 10 = own.lane.read 13)
      finish := by
  have advances :
      OwnPaths.Does kernel 45 47
        (fun own =>
          own.lane.read 8 + own.lane.read 10 = own.lane.read 13)
        advance :=
    OwnPaths.Does.straight laid.step (by decide)
  have jumps :
      OwnPaths.Does kernel 47 50 (fun own => own.lane.predicate = true)
        fun own => own :=
    @OwnPaths.Does.jumps kernel 47 50 3 laid.leaveOuter (by decide)
      (by decide)
  have store :
      OwnPaths.Does kernel 50 55 (fun _ => True)
        (OwnLane.executeAll gemmStore) :=
    OwnPaths.Does.straight laid.store (by decide)
  rw [laid.size]
  refine (advances.trans jumps ?_).trans store fun _ _ => trivial
  intro own isLast
  rw [predicate_advance, isLast, beq_self_eq_true]

end Laid

/-! ## Phases, thread by thread -/

/-- What a thread has done that has copied its cells of the next tiles. -/
structure Loaded
    (m n k tileSize block localId done : Nat)
    (sum : Word)
    (memory : Nat → Word)
    (after : OwnLane) :
    Prop where
  ready : Ready m n k tileSize block localId done sum after.lane
  offset :
    after.lane.read 30 = BitVec.ofNat 32 (tileSize * tileSize * 4)
  copied :
    after.memory =
      Function.update
        (Function.update memory
          (sharedCell (2 * tileSize * tileSize) block localId)
          (memory (leftAddress n k tileSize block localId done)))
        (sharedCell (2 * tileSize * tileSize) block
          (tileSize * tileSize + localId))
        (memory (rightAddress m n k tileSize block localId done))
  touched :
    after.touched =
      [.load (leftAddress n k tileSize block localId done),
        .store (sharedCell (2 * tileSize * tileSize) block localId)
          (memory (leftAddress n k tileSize block localId done)),
        .load (rightAddress m n k tileSize block localId done),
        .store
          (sharedCell (2 * tileSize * tileSize) block
            (tileSize * tileSize + localId))
          (memory (rightAddress m n k tileSize block localId done))]

section Threads

variable {m n k tileSize warpSize block localId done : Nat}
variable {sum : Word}
variable {own : OwnLane}

/-- Copying gives what is expected of it. -/
theorem loadTiles_loaded
    (setting : Setting m n k tileSize warpSize block)
    (ready : Ready m n k tileSize block localId done sum own.lane)
    (untouched : own.touched = [])
    (isThread : localId < tileSize * tileSize)
    (inside : done + tileSize ≤ k) :
    Loaded m n k tileSize block localId done sum own.memory
      (own.executeAll (gemmLoadTiles tileSize)) := by
  obtain ⟨⟨memory, touched⟩, offset⟩ :=
    loadTiles_ready setting ready isThread inside
  rw [untouched] at touched
  exact
    ⟨ready.executeScratch (loadTiles_scratch tileSize), offset, memory,
      touched⟩

/-- A thread begins with the first tiles and the sum zero. -/
theorem enter_loaded
    (setting : Setting m n k tileSize warpSize block)
    (registers : Registers m n k tileSize block localId own.lane)
    (untouched : own.touched = [])
    (isThread : localId < tileSize * tileSize)
    (inside : 0 + tileSize ≤ k) :
    Loaded m n k tileSize block localId 0 0 own.memory
      (enter tileSize own) := by
  have spares :
      ∀ inst ∈ gemmProlog,
        (-1 ≤ inst.dst ∧ inst.dst < 32) ∧ ¬ Fixed inst.dst := by
    decide
  have constants :
      ((own.executeAll gemmProlog).lane.read 31 = BitVec.ofInt 32 4 ∧
        (own.executeAll gemmProlog).lane.read 8 = BitVec.ofInt 32 0 ∧
          (own.executeAll gemmProlog).lane.read 7 = BitVec.ofInt 32 0) ∧
        (own.executeAll gemmProlog).memory = own.memory ∧
          (own.executeAll gemmProlog).touched = own.touched := by
    rw [gemmProlog]
    simp (disch := decide) only [OwnLane.executeAll_cons,
      OwnLane.executeAll_nil, OwnLane.execute_mov, LaneState.read_write,
      if_pos, if_neg, Int.reduceEq, and_self]
  obtain ⟨⟨four, reached, total⟩, memory, touched⟩ := constants
  have loaded :=
    loadTiles_loaded setting
      ⟨registers.executeAll spares, four, reached, total⟩
      (touched.trans untouched) isThread inside
  rw [memory] at loaded
  exact loaded

/-- The step to the next tile. -/
theorem advance_ready
    (ready : Ready m n k tileSize block localId done sum own.lane) :
    Ready m n k tileSize block localId (done + tileSize) sum
        (advance own).lane ∧
      (advance own).memory = own.memory ∧
        (advance own).touched = own.touched := by
  have registers := ready.toRegisters
  have result :
      ((advance own).lane.read 31 = BitVec.ofNat 32 4 ∧
        (advance own).lane.read 8 =
            BitVec.ofNat 32 (done + tileSize) ∧
          (advance own).lane.read 7 = sum) ∧
        (advance own).memory = own.memory ∧
          (advance own).touched = own.touched := by
    rw [advance]
    simp (disch := decide) only [OwnLane.executeAll_cons,
      OwnLane.executeAll_nil, OwnLane.execute_add, OwnLane.execute_cmp,
      LaneState.read_write, LaneState.read_predicate, registers.size,
      ready.four, ready.reached, ready.total, ← BitVec.ofNat_add, if_pos,
      if_neg, Int.reduceEq, and_self]
  obtain ⟨⟨four, reached, total⟩, rest⟩ := result
  exact
    ⟨⟨registers.executeAll (by decide), four, reached, total⟩, rest⟩

/-- A thread goes on with the next tiles and the sum so far. -/
theorem proceed_loaded
    (setting : Setting m n k tileSize warpSize block)
    (ready : Ready m n k tileSize block localId done sum own.lane)
    (untouched : own.touched = [])
    (isThread : localId < tileSize * tileSize)
    (inside : done + tileSize + tileSize ≤ k) :
    Loaded m n k tileSize block localId (done + tileSize) sum own.memory
      (proceed tileSize own) := by
  obtain ⟨advanced, memory, touched⟩ := advance_ready ready
  have compared :
      ((advance own).executeAll [cmp 0 0]).memory =
          (advance own).memory ∧
        ((advance own).executeAll [cmp 0 0]).touched =
          (advance own).touched := by
    simp only [OwnLane.executeAll_cons, OwnLane.executeAll_nil,
      OwnLane.execute_cmp, and_self]
  have loaded :=
    loadTiles_loaded setting (advanced.executeScratch (by decide))
      ((compared.2.trans touched).trans untouched) isThread inside
  rw [compared.1, memory] at loaded
  exact loaded

/-- A comparison changes no register and touches no memory. -/
theorem executeAll_cmp
    (src1 src2 : Int)
    (own : OwnLane) :
    (∀ register,
        (own.executeAll [cmp src1 src2]).lane.read register =
          own.lane.read register) ∧
      (own.executeAll [cmp src1 src2]).memory = own.memory ∧
        (own.executeAll [cmp src1 src2]).touched = own.touched := by
  rw [OwnLane.executeAll_cons, OwnLane.executeAll_nil, OwnLane.execute_cmp]
  exact ⟨fun _ => rfl, rfl, rfl⟩

theorem Counting.congr
    {count : Nat}
    {lane other : LaneState}
    (counting : Counting m n k tileSize block localId done count sum lane)
    (same : ∀ register, other.read register = lane.read register) :
    Counting m n k tileSize block localId done count sum other where
  toRegisters :=
    counting.toRegisters.congr fun register _ _ => same register
  four := by rw [same, counting.four]
  reached := by rw [same, counting.reached]
  total := by rw [same, counting.total]
  counter := by rw [same, counting.counter]
  offset := by rw [same, counting.offset]

/-- A turn of the inner loop adds one product. -/
theorem innerTurn_counting
    {count : Nat}
    (setting : Setting m n k tileSize warpSize block)
    (counting :
      Counting m n k tileSize block localId done count sum own.lane)
    (isThread : localId < tileSize * tileSize)
    (inside : count < tileSize) :
    let left :=
      sharedCell (2 * tileSize * tileSize) block
        (localId / tileSize * tileSize + count)
    let right :=
      sharedCell (2 * tileSize * tileSize) block
        (tileSize * tileSize + (count * tileSize + localId % tileSize))
    Counting m n k tileSize block localId done (count + 1)
        (sum + term tileSize block localId count own.memory)
        (innerTurn own).lane ∧
      (innerTurn own).memory = own.memory ∧
        (innerTurn own).touched =
          own.touched ++ [.load left] ++ [.load right] := by
  dsimp only
  obtain ⟨sameBefore, memoryBefore, touchedBefore⟩ :=
    executeAll_cmp 9 10 own
  obtain ⟨counted, memory, touched⟩ :=
    accumulate_counting setting (counting.congr sameBefore) isThread inside
  obtain ⟨sameAfter, memoryAfter, touchedAfter⟩ :=
    executeAll_cmp 0 0
      ((own.executeAll [cmp 9 10]).executeAll gemmAccumulate)
  rw [memoryBefore] at counted memory
  rw [touchedBefore] at touched
  exact
    ⟨counted.congr sameAfter, memoryAfter.trans memory,
      touchedAfter.trans touched⟩

/-- What the turns of the inner loop have done. -/
theorem innerTurns_counting
    (setting : Setting m n k tileSize warpSize block)
    (counting :
      Counting m n k tileSize block localId done 0 sum own.lane)
    (isThread : localId < tileSize * tileSize)
    {count : Nat}
    (inside : count ≤ tileSize) :
    let after := innerTurn^[count] own
    Counting m n k tileSize block localId done count
        (sum +
          ∑ index ∈ Finset.range count,
            term tileSize block localId index own.memory)
        after.lane ∧
      after.memory = own.memory ∧
        ∀ access ∈ after.touched,
          access ∈ own.touched ∨
            ∃ index < 2 * tileSize * tileSize,
              access =
                .load
                  (sharedCell (2 * tileSize * tileSize) block index) := by
  dsimp only
  induction count with
  | zero =>
      refine ⟨?_, rfl, fun _ member => Or.inl member⟩
      rw [Finset.sum_range_zero, add_zero]
      exact counting
  | succ count inductionHypothesis =>
      obtain ⟨earlier, memory, touched⟩ :=
        inductionHypothesis (by omega)
      obtain ⟨counted, sameMemory, nowTouched⟩ :=
        innerTurn_counting setting earlier isThread inside
      rw [Function.iterate_succ_apply']
      rw [memory] at counted sameMemory
      refine ⟨?_, sameMemory, fun access accessed => ?_⟩
      · rw [Finset.sum_range_succ, ← add_assoc]
        exact counted
      · obtain ⟨isRow, isCol, _⟩ := setting.position isThread
        rw [nowTouched] at accessed
        rcases List.mem_append.mp accessed with loads | right
        · rcases List.mem_append.mp loads with before | left
          · exact touched access before
          · exact
              Or.inr
                ⟨_, (Setting.tile_lt (rowMajor_lt isRow inside)).1,
                  List.mem_singleton.mp left⟩
        · exact
            Or.inr
              ⟨_, (Setting.tile_lt (rowMajor_lt inside isCol)).2,
                List.mem_singleton.mp right⟩

/-- Between the two barriers a thread adds the products of the tiles up. -/
theorem multiply_ready
    (setting : Setting m n k tileSize warpSize block)
    (ready : Ready m n k tileSize block localId done sum own.lane)
    (offset :
      own.lane.read 30 = BitVec.ofNat 32 (tileSize * tileSize * 4))
    (untouched : own.touched = [])
    (isThread : localId < tileSize * tileSize) :
    Ready m n k tileSize block localId done
        (sum +
          ∑ index ∈ Finset.range tileSize,
            term tileSize block localId index own.memory)
        (multiply tileSize own).lane ∧
      ∀ access ∈ (multiply tileSize own).touched,
        ∃ index < 2 * tileSize * tileSize,
          access =
            .load (sharedCell (2 * tileSize * tileSize) block index) := by
  have zeroed :
      ((own.executeAll [mov 9 0]).lane.read 31 = BitVec.ofNat 32 4 ∧
        (own.executeAll [mov 9 0]).lane.read 8 = BitVec.ofNat 32 done ∧
          (own.executeAll [mov 9 0]).lane.read 7 = sum ∧
            (own.executeAll [mov 9 0]).lane.read 9 = BitVec.ofInt 32 0 ∧
              (own.executeAll [mov 9 0]).lane.read 30 =
                BitVec.ofNat 32 (tileSize * tileSize * 4)) ∧
        (own.executeAll [mov 9 0]).memory = own.memory ∧
          (own.executeAll [mov 9 0]).touched = own.touched := by
    simp (disch := decide) only [OwnLane.executeAll_cons,
      OwnLane.executeAll_nil, OwnLane.execute_mov, LaneState.read_write,
      ready.four, ready.reached, ready.total, offset, if_pos, if_neg,
      Int.reduceEq, and_self]
  obtain ⟨⟨four, reached, total, counter, offset⟩, memory, touched⟩ := zeroed
  obtain ⟨counted, _, loads⟩ :=
    innerTurns_counting setting
      ⟨⟨ready.toRegisters.executeAll (by decide), four, reached, total⟩,
        counter, offset⟩
      isThread (Nat.le_refl tileSize)
  obtain ⟨sameAfter, _, touchedAfter⟩ :=
    executeAll_cmp 9 10 (innerTurn^[tileSize] (own.executeAll [mov 9 0]))
  rw [memory] at counted
  refine ⟨(counted.congr sameAfter).toReady, fun access accessed => ?_⟩
  rw [multiply, touchedAfter] at accessed
  rcases loads access accessed with before | later
  · rw [touched, untouched] at before
    cases before
  · exact later

/-- After the last tile a thread writes its sum out. -/
theorem finish_writes
    (setting : Setting m n k tileSize warpSize block)
    (ready : Ready m n k tileSize block localId done sum own.lane)
    (isThread : localId < tileSize * tileSize) :
    let cell :=
      numInputs m n k * 4 +
        (row n tileSize block localId * n + col n tileSize block localId) *
          4
    (finish own).memory = Function.update own.memory cell sum ∧
      (finish own).touched = own.touched ++ [.store cell sum] := by
  dsimp only
  have fits := setting.fits
  have inside :=
    rowMajor_lt (setting.row_lt isThread) (setting.col_lt isThread)
  have pointer :
      LaneState.pointer
          (BitVec.ofNat 32
            (numInputs m n k * 4 +
              (row n tileSize block localId * n +
                  col n tileSize block localId) *
                4)) =
        numInputs m n k * 4 +
          (row n tileSize block localId * n +
              col n tileSize block localId) *
            4 := by
    apply LaneState.pointer_ofNat
    unfold MemorySystem.sharedMemBase at fits
    omega
  obtain ⟨advanced, memory, touched⟩ := advance_ready ready
  have registers := advanced.toRegisters
  rw [finish, gemmStore]
  simp (disch := decide) only [OwnLane.executeAll_cons,
    OwnLane.executeAll_nil, OwnLane.execute_add, OwnLane.execute_mul,
    OwnLane.execute_store, LaneState.read_write, registers.row,
    registers.col, registers.width, registers.output, advanced.four,
    advanced.total, memory, touched, ← BitVec.ofNat_add,
    ← BitVec.ofNat_mul, if_pos, if_neg, Int.reduceEq, pointer, and_self]

end Threads

end Gemm

end SimSm
