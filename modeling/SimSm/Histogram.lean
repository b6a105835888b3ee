import SimSm.ThreadPhases

namespace SimSm

/-!
# The histogram kernel

Each block zeroes its bins in shared memory, adds its elements to them, and
writes them out.  A bin is zeroed and written by the thread that its number
names modulo the block size; in a last block with fewer threads some bins have
no such thread.
-/

open Interleaving Outcome Benchmarks

namespace Histogram

/-! ## Cells and registers -/

/-- The cell of a bin of a block in shared memory. -/
def sharedBin (numBins block bin : Nat) : Nat :=
  MemorySystem.sharedMemBase + block * numBins * 4 + bin * 4

/-- The cell to which a bin of a block is written. -/
def outputCell (numElements numBins block bin : Nat) : Nat :=
  numElements * 4 + block * numBins * 4 + bin * 4

/-- The block that writes to a cell. -/
def writer (numElements numBins address : Nat) : Option Nat :=
  if MemorySystem.sharedMemBase ≤ address then
    some ((address - MemorySystem.sharedMemBase) / (numBins * 4))
  else if numElements * 4 ≤ address then
    some ((address - numElements * 4) / (numBins * 4))
  else
    none

/-- The elements in global memory, everything else zeroed. -/
abbrev elements (numElements : Nat) (input : Nat → Nat) : Nat → Word :=
  GPU.placedWords numElements fun index => BitVec.ofNat 32 (input index)

/-- How many elements of a block fall in a bin. -/
def blockCount
    (numElements blockSize : Nat)
    (input : Nat → Nat)
    (block bin : Nat) :
    Nat :=
  (List.range (threadsInBlock numElements blockSize block)).countP
    fun localId => input (block * blockSize + localId) = bin

/-- What the kernel leaves in the output cells; bins without a thread stay zero. -/
def goal
    (numElements blockSize numBins : Nat)
    (input : Nat → Nat)
    (address : Nat) :
    Word :=
  let block := (address - numElements * 4) / (numBins * 4)
  let bin := (address - numElements * 4) % (numBins * 4) / 4
  if (address - numElements * 4) % 4 = 0 ∧
      bin % blockSize < threadsInBlock numElements blockSize block then
    BitVec.ofNat 32 (blockCount numElements blockSize input block bin)
  else
    0

/-- The registers that the grid gives to a thread. -/
structure Registers
    (numElements blockSize numBins block localId : Nat)
    (lane : LaneState) :
    Prop where
  input :
    lane.read 0 = BitVec.ofNat 32 ((block * blockSize + localId) * 4)
  shared :
    lane.read 1 = BitVec.ofNat 32 (sharedBin numBins block 0)
  output :
    lane.read 2 =
      BitVec.ofNat 32 (outputCell numElements numBins block 0)
  active :
    lane.read 4 =
      BitVec.ofNat 32
        (flag (block * blockSize + localId < numElements))
  number : lane.read 5 = BitVec.ofNat 32 localId
  serves :
    ∀ iter < 8,
      lane.read (20 + iter : Nat) =
        BitVec.ofNat 32 (flag (localId + iter * blockSize < numBins))

/-- The registers of a thread after the first two instructions. -/
structure Ready
    (numElements blockSize numBins block localId : Nat)
    (lane : LaneState) :
    Prop extends
    Registers numElements blockSize numBins block localId lane where
  zero : lane.read 19 = BitVec.ofNat 32 0
  four : lane.read 12 = BitVec.ofNat 32 4

/-- The registers that the bodies of the kernel compute with. -/
def Scratch (register : Int) : Prop :=
  register = -1 ∨ register = 10 ∨ 13 ≤ register ∧ register ≤ 18

instance (register : Int) : Decidable (Scratch register) :=
  inferInstanceAs (Decidable (_ ∨ _))

section Lanes

variable {numElements blockSize numBins block localId : Nat}
variable {lane other : LaneState}

theorem Registers.congr
    (registers :
      Registers numElements blockSize numBins block localId lane)
    (same :
      ∀ register : Int,
        RegisterOperand register →
        ¬ Scratch register →
        register ≠ 12 →
        register ≠ 19 →
        other.read register = lane.read register) :
    Registers numElements blockSize numBins block localId other where
  input := by rw [same 0 (by decide) (by decide) (by decide) (by decide),
    registers.input]
  shared := by rw [same 1 (by decide) (by decide) (by decide) (by decide),
    registers.shared]
  output := by rw [same 2 (by decide) (by decide) (by decide) (by decide),
    registers.output]
  active := by rw [same 4 (by decide) (by decide) (by decide) (by decide),
    registers.active]
  number := by rw [same 5 (by decide) (by decide) (by decide) (by decide),
    registers.number]
  serves iter inside := by
    rw [same (20 + iter : Nat) ⟨by omega, by omega⟩
      (by unfold Scratch; omega) (by omega) (by omega),
      registers.serves iter inside]

/-- A thread of the histogram grid starts with these registers. -/
theorem builtLane_registers
    {warpSize : Nat}
    (positive : 0 < warpSize)
    {warps : List Warp}
    (ran :
      buildWarps (threadsInBlock numElements blockSize block) warpSize
          (histogramThread numElements blockSize warpSize numBins block) =
        .ok warps)
    (inside : localId < threadsInBlock numElements blockSize block) :
    Registers numElements blockSize numBins block localId
      (builtLane warpSize
        (histogramThread numElements blockSize warpSize numBins block)
        localId) := by
  obtain ⟨thread, isBuilt⟩ := buildWarps_thread positive ran inside
  obtain ⟨_, _, split⟩ := lane_of_thread positive inside
  rw [builtLane, isBuilt]
  change
    Registers numElements blockSize numBins block localId thread.lane
  unfold histogramThread at isBuilt
  dsimp only at isBuilt
  rw [split] at isBuilt
  have reads
      {index value : Nat}
      (member :
        (index, value) ∈
          [(0, (block * blockSize + localId) * 4),
              (1, MemorySystem.sharedMemBase + block * numBins * 4),
              (2, numElements * 4 + block * numBins * 4), (3, numBins),
              (4, flag (block * blockSize + localId < numElements)),
              (5, localId)] ++
            (List.range 8).map fun iter =>
              (20 + iter, flag (localId + iter * blockSize < numBins))) :
      thread.lane.read index = BitVec.ofNat 32 value := by
    exact
      @writeRegisters_read _ _ _
        [0, 1, 2, 3, 4, 5, 20, 21, 22, 23, 24, 25, 26, 27] rfl
        (by decide) (by decide) isBuilt _ _ member
  refine
    ⟨reads (by simp), reads (by simp [sharedBin]),
      reads (by simp [outputCell]), reads (by simp), reads (by simp),
      fun iter small => reads ?_⟩
  exact
    List.mem_append_right _
      (List.mem_map.mpr ⟨iter, List.mem_range.mpr small, rfl⟩)

end Lanes

/-! ## The bodies of the kernel, thread by thread -/

/-- The body of an iteration that zeroes a bin. -/
def zeroBody (blockSize iter : Nat) : List Instruction :=
  [mov 15 (iter * blockSize : Nat), add 16 5 15, mul 13 16 12,
    add 14 1 13, store 19 14]

/-- The body that counts an element. -/
def countBody : List Instruction :=
  [load 10 0, mov 12 4, mul 13 10 12, add 14 1 13, mov 16 1,
    atomicAdd 16 14]

/-- The body of an iteration that writes a bin out. -/
def writeBody (blockSize iter : Nat) : List Instruction :=
  [mov 15 (iter * blockSize : Nat), add 16 5 15, mul 13 16 12,
    add 14 1 13, load 17 14, add 18 2 13, store 17 18]

theorem zeroBody_scratch (blockSize iter : Nat) :
    ∀ inst ∈ zeroBody blockSize iter, Scratch inst.dst := by
  simp [zeroBody, mov, add, mul, store, Scratch]

theorem writeBody_scratch (blockSize iter : Nat) :
    ∀ inst ∈ writeBody blockSize iter, Scratch inst.dst := by
  simp [writeBody, mov, add, mul, load, store, Scratch]

section Bodies

variable {numElements blockSize numBins block localId iter : Nat}
variable {own : OwnLane}

/-- Bodies that compute in scratch registers keep the others. -/
theorem Ready.executeGuarded
    (ready :
      Ready numElements blockSize numBins block localId own.lane)
    {predicate : Int}
    {body : List Instruction}
    (scratch : ∀ inst ∈ body, Scratch inst.dst) :
    Ready numElements blockSize numBins block localId
      (own.executeGuarded predicate body).lane := by
  have same
      (register : Int)
      (valid : RegisterOperand register)
      (notScratch : ¬ Scratch register) :
      (own.executeGuarded predicate body).lane.read register =
        own.lane.read register := by
    refine
      OwnLane.read_executeGuarded valid (fun inst member => ?_) own
    have isScratch := scratch inst member
    refine ⟨?_, fun isDst => notScratch (isDst ▸ isScratch)⟩
    unfold Scratch at isScratch
    omega
  refine
    ⟨ready.toRegisters.congr fun register valid notScratch _ _ =>
        same register valid notScratch, ?_, ?_⟩
  · rw [same 19 (by decide) (by decide), ready.zero]
  · rw [same 12 (by decide) (by decide), ready.four]

/-- A thread executes the bodies of the bins that it serves. -/
theorem Ready.serves_iff
    (ready :
      Ready numElements blockSize numBins block localId own.lane)
    (small : iter < 8) :
    own.lane.read (20 + iter : Nat) = own.lane.read 19 ↔
      ¬ localId + iter * blockSize < numBins := by
  rw [ready.serves iter small, ready.zero, flag]
  by_cases serves : localId + iter * blockSize < numBins
  · simp [serves]
  · simp [serves]

/-- Cells of a block that fits below shared memory have small addresses. -/
theorem small_sharedBin
    (fits :
      numElements * 4 + block * numBins * 4 + numBins * 4 ≤
        MemorySystem.sharedMemBase)
    {bin : Nat}
    (inside : bin < numBins) :
    sharedBin numBins block bin < 2 ^ 31 := by
  unfold sharedBin
  unfold MemorySystem.sharedMemBase at fits ⊢
  omega

theorem small_outputCell
    (fits :
      numElements * 4 + block * numBins * 4 + numBins * 4 ≤
        MemorySystem.sharedMemBase)
    {bin : Nat}
    (inside : bin < numBins) :
    outputCell numElements numBins block bin <
      MemorySystem.sharedMemBase := by
  unfold outputCell
  omega

theorem sharedBin_zero_add (numBins block bin : Nat) :
    sharedBin numBins block 0 + bin * 4 = sharedBin numBins block bin := by
  unfold sharedBin
  omega

theorem outputCell_zero_add (numElements numBins block bin : Nat) :
    outputCell numElements numBins block 0 + bin * 4 =
      outputCell numElements numBins block bin := by
  unfold outputCell
  omega

/-- An iteration zeroes the bin that the thread serves in it. -/
theorem zero_serves
    (ready :
      Ready numElements blockSize numBins block localId own.lane)
    (small : iter < 8)
    (fits :
      numElements * 4 + block * numBins * 4 + numBins * 4 ≤
        MemorySystem.sharedMemBase)
    (serves : localId + iter * blockSize < numBins) :
    let bin := sharedBin numBins block (localId + iter * blockSize)
    let after :=
      own.executeGuarded (20 + iter : Nat) (zeroBody blockSize iter)
    after.memory = Function.update own.memory bin 0 ∧
      after.touched = own.touched ++ [.store bin 0] := by
  dsimp only
  have runs :
      own.lane.read (20 + iter : Nat) ≠ own.lane.read 19 :=
    fun skips => (ready.serves_iff small).mp skips serves
  have address :
      LaneState.pointer
          (BitVec.ofNat 32
            (sharedBin numBins block 0 +
              (localId + iter * blockSize) * 4)) =
        sharedBin numBins block (localId + iter * blockSize) := by
    rw [sharedBin_zero_add,
      LaneState.pointer_ofNat (small_sharedBin fits serves)]
  rw [OwnLane.executeGuarded_run runs, zeroBody]
  simp (disch := decide) only [OwnLane.executeAll_cons,
    OwnLane.executeAll_nil, OwnLane.execute_cmp, OwnLane.execute_mov,
    OwnLane.execute_add, OwnLane.execute_mul, OwnLane.execute_store,
    LaneState.read_write, LaneState.read_predicate, ready.shared,
    ready.number, ready.four, ready.zero, BitVec.ofInt_natCast,
    ← BitVec.ofNat_add, ← BitVec.ofNat_mul, if_pos, if_neg, Int.reduceEq,
    address]
  exact ⟨rfl, rfl⟩

/-- An iteration writes out the bin that the thread serves in it. -/
theorem write_serves
    (ready :
      Ready numElements blockSize numBins block localId own.lane)
    (small : iter < 8)
    (fits :
      numElements * 4 + block * numBins * 4 + numBins * 4 ≤
        MemorySystem.sharedMemBase)
    (serves : localId + iter * blockSize < numBins) :
    let bin := sharedBin numBins block (localId + iter * blockSize)
    let cell :=
      outputCell numElements numBins block (localId + iter * blockSize)
    let after :=
      own.executeGuarded (20 + iter : Nat) (writeBody blockSize iter)
    after.memory = Function.update own.memory cell (own.memory bin) ∧
      after.touched =
        own.touched ++ [.load bin] ++ [.store cell (own.memory bin)] := by
  dsimp only
  have runs :
      own.lane.read (20 + iter : Nat) ≠ own.lane.read 19 :=
    fun skips => (ready.serves_iff small).mp skips serves
  have binAddress :
      LaneState.pointer
          (BitVec.ofNat 32
            (sharedBin numBins block 0 +
              (localId + iter * blockSize) * 4)) =
        sharedBin numBins block (localId + iter * blockSize) := by
    rw [sharedBin_zero_add,
      LaneState.pointer_ofNat (small_sharedBin fits serves)]
  have cellAddress :
      LaneState.pointer
          (BitVec.ofNat 32
            (outputCell numElements numBins block 0 +
              (localId + iter * blockSize) * 4)) =
        outputCell numElements numBins block
          (localId + iter * blockSize) := by
    rw [outputCell_zero_add,
      LaneState.pointer_ofNat
        ((small_outputCell fits serves).trans (by decide))]
  rw [OwnLane.executeGuarded_run runs, writeBody]
  simp (disch := decide) only [OwnLane.executeAll_cons,
    OwnLane.executeAll_nil, OwnLane.execute_cmp, OwnLane.execute_mov,
    OwnLane.execute_add, OwnLane.execute_mul, OwnLane.execute_load,
    OwnLane.execute_store, LaneState.read_write, LaneState.read_predicate,
    ready.shared, ready.output, ready.number, ready.four,
    BitVec.ofInt_natCast, ← BitVec.ofNat_add, ← BitVec.ofNat_mul, if_pos,
    if_neg, Int.reduceEq, binAddress, cellAddress, and_self]

/-- A thread with an element adds one to the bin of the element. -/
theorem count_active
    (ready :
      Ready numElements blockSize numBins block localId own.lane)
    (active : block * blockSize + localId < numElements)
    (fits :
      numElements * 4 + block * numBins * 4 + numBins * 4 ≤
        MemorySystem.sharedMemBase)
    {element : Nat}
    (isElement :
      own.memory ((block * blockSize + localId) * 4) =
        BitVec.ofNat 32 element)
    (inBins : element < numBins) :
    let bin := sharedBin numBins block element
    let after := own.executeGuarded 4 countBody
    after.memory =
        Function.update own.memory bin (own.memory bin + 1) ∧
      after.touched =
          own.touched ++ [.load ((block * blockSize + localId) * 4)] ++
            [.add bin 1] ∧
        Ready numElements blockSize numBins block localId after.lane := by
  dsimp only
  have runs : own.lane.read 4 ≠ own.lane.read 19 := by
    rw [ready.active, ready.zero, flag]
    simp [active]
  have inputAddress :
      LaneState.pointer
          (BitVec.ofNat 32 ((block * blockSize + localId) * 4)) =
        (block * blockSize + localId) * 4 := by
    apply LaneState.pointer_ofNat
    unfold MemorySystem.sharedMemBase at fits
    omega
  have binAddress :
      LaneState.pointer
          (BitVec.ofNat 32 (sharedBin numBins block 0 + element * 4)) =
        sharedBin numBins block element := by
    rw [sharedBin_zero_add,
      LaneState.pointer_ofNat (small_sharedBin fits inBins)]
  have four : BitVec.ofInt 32 4 = BitVec.ofNat 32 4 := by decide
  have one : BitVec.ofInt 32 1 = (1 : Word) := by decide
  have result :
      ((own.executeGuarded 4 countBody).memory =
          Function.update own.memory (sharedBin numBins block element)
            (own.memory (sharedBin numBins block element) + 1) ∧
        (own.executeGuarded 4 countBody).touched =
          own.touched ++ [.load ((block * blockSize + localId) * 4)] ++
            [.add (sharedBin numBins block element) 1]) ∧
        (own.executeGuarded 4 countBody).lane.read 12 =
          BitVec.ofNat 32 4 := by
    rw [OwnLane.executeGuarded_run runs, countBody]
    simp (disch := decide) only [OwnLane.executeAll_cons,
      OwnLane.executeAll_nil, OwnLane.execute_cmp, OwnLane.execute_mov,
      OwnLane.execute_add, OwnLane.execute_mul, OwnLane.execute_load,
      OwnLane.execute_atomicAdd, LaneState.read_write,
      LaneState.read_predicate, ready.input, ready.shared, four, one,
      inputAddress, isElement, ← BitVec.ofNat_add, ← BitVec.ofNat_mul,
      if_pos, if_neg, Int.reduceEq, binAddress, and_self]
  have same
      (register : Int)
      (valid : RegisterOperand register)
      (notScratch : ¬ Scratch register)
      (other : register ≠ 12) :
      (own.executeGuarded 4 countBody).lane.read register =
        own.lane.read register := by
    refine
      OwnLane.read_executeGuarded valid (fun inst member => ?_) own
    have written : Scratch inst.dst ∨ inst.dst = 12 := by
      revert inst
      decide
    unfold Scratch at notScratch written
    omega
  refine
    ⟨result.1.1, result.1.2,
      ready.toRegisters.congr fun register valid notScratch other _ =>
        same register valid notScratch other,
      ?_, result.2⟩
  rw [same 19 (by decide) (by decide) (by decide), ready.zero]

end Bodies

/-! ## The loops of the kernel, thread by thread -/

/-- All iterations that zero bins. -/
def zeroAll (blockSize iters : Nat) (own : OwnLane) : OwnLane :=
  (List.range iters).foldl
    (fun own iter =>
      own.executeGuarded (20 + iter : Nat) (zeroBody blockSize iter))
    own

/-- All iterations that write bins out. -/
def writeAll (blockSize iters : Nat) (own : OwnLane) : OwnLane :=
  (List.range iters).foldl
    (fun own iter =>
      own.executeGuarded (20 + iter : Nat) (writeBody blockSize iter))
    own

section Loops

variable {numElements blockSize numBins block localId iters : Nat}
variable {own : OwnLane}

theorem zeroAll_succ (blockSize iters : Nat) (own : OwnLane) :
    zeroAll blockSize (iters + 1) own =
      (zeroAll blockSize iters own).executeGuarded (20 + iters : Nat)
        (zeroBody blockSize iters) := by
  rw [zeroAll, List.range_succ, List.foldl_append]
  rfl

theorem writeAll_succ (blockSize iters : Nat) (own : OwnLane) :
    writeAll blockSize (iters + 1) own =
      (writeAll blockSize iters own).executeGuarded (20 + iters : Nat)
        (writeBody blockSize iters) := by
  rw [writeAll, List.range_succ, List.foldl_append]
  rfl

/-- What zeroing does to a thread's memory, and what it touches. -/
structure Zeroed
    (numElements blockSize numBins block localId : Nat)
    (before after : OwnLane) :
    Prop where
  ready : Ready numElements blockSize numBins block localId after.lane
  memory :
    ∀ address,
      after.memory address = before.memory address ∨
        after.memory address = 0
  touched :
    ∀ access ∈ after.touched,
      access ∈ before.touched ∨
        ∃ bin,
          bin < numBins ∧ (∃ iter, bin = localId + iter * blockSize) ∧
            access = .store (sharedBin numBins block bin) 0

/-- Every iteration that zeroes keeps what zeroing does. -/
theorem zeroAll_zeroed
    (ready :
      Ready numElements blockSize numBins block localId own.lane)
    (small : iters ≤ 8)
    (fits :
      numElements * 4 + block * numBins * 4 + numBins * 4 ≤
        MemorySystem.sharedMemBase) :
    Zeroed numElements blockSize numBins block localId own
      (zeroAll blockSize iters own) := by
  induction iters with
  | zero =>
      exact ⟨ready, fun _ => Or.inl rfl, fun _ member => Or.inl member⟩
  | succ iters inductionHypothesis =>
      have earlier := inductionHypothesis (by omega)
      have readyLater :=
        @Ready.executeGuarded _ _ _ _ _ _ earlier.ready
          (20 + iters : Nat) _ (zeroBody_scratch blockSize iters)
      rw [zeroAll_succ]
      by_cases serves : localId + iters * blockSize < numBins
      · obtain ⟨memory, touched⟩ :=
          zero_serves earlier.ready (by omega) fits serves
        refine ⟨readyLater, fun address => ?_, fun access member => ?_⟩
        · rw [memory, Function.update_apply]
          split
          · exact Or.inr rfl
          · exact earlier.memory address
        · rw [touched] at member
          rcases List.mem_append.mp member with before | now
          · exact earlier.touched access before
          · rw [List.mem_singleton] at now
            exact Or.inr ⟨_, serves, ⟨iters, rfl⟩, now⟩
      · have skips :=
          (earlier.ready.serves_iff (by omega)).mpr serves
        refine ⟨readyLater, ?_, ?_⟩
        · rw [OwnLane.executeGuarded_skip skips, OwnLane.execute_cmp]
          exact earlier.memory
        · rw [OwnLane.executeGuarded_skip skips, OwnLane.execute_cmp]
          exact earlier.touched

/-- What writing out does to a thread's memory, and what it touches. -/
structure WrittenOut
    (numElements blockSize numBins block localId iters : Nat)
    (before after : OwnLane) :
    Prop where
  ready : Ready numElements blockSize numBins block localId after.lane
  shared :
    ∀ address,
      MemorySystem.sharedMemBase ≤ address →
      after.memory address = before.memory address
  written :
    ∀ iter < iters,
      localId + iter * blockSize < numBins →
      after.memory
          (outputCell numElements numBins block
            (localId + iter * blockSize)) =
        before.memory
          (sharedBin numBins block (localId + iter * blockSize))
  touched :
    ∀ access ∈ after.touched,
      access ∈ before.touched ∨
        ∃ bin,
          bin < numBins ∧ (∃ iter, bin = localId + iter * blockSize) ∧
            (access = .load (sharedBin numBins block bin) ∨
              ∃ value,
                access =
                  .store (outputCell numElements numBins block bin) value)

/-- Every iteration that writes out keeps what writing out does. -/
theorem writeAll_writtenOut
    (positive : 0 < blockSize)
    (ready :
      Ready numElements blockSize numBins block localId own.lane)
    (small : iters ≤ 8)
    (fits :
      numElements * 4 + block * numBins * 4 + numBins * 4 ≤
        MemorySystem.sharedMemBase) :
    WrittenOut numElements blockSize numBins block localId iters own
      (writeAll blockSize iters own) := by
  induction iters with
  | zero =>
      exact
        ⟨ready, fun _ _ => rfl, fun _ none => absurd none (Nat.not_lt_zero _),
          fun _ member => Or.inl member⟩
  | succ iters inductionHypothesis =>
      have earlier := inductionHypothesis (by omega)
      have readyLater :=
        @Ready.executeGuarded _ _ _ _ _ _ earlier.ready
          (20 + iters : Nat) _ (writeBody_scratch blockSize iters)
      rw [writeAll_succ]
      by_cases serves : localId + iters * blockSize < numBins
      · obtain ⟨memory, touched⟩ :=
          write_serves earlier.ready (by omega) fits serves
        have below := small_outputCell fits serves
        have bin :=
          earlier.shared
            (sharedBin numBins block (localId + iters * blockSize))
            (by unfold sharedBin; omega)
        refine
          ⟨readyLater, fun address isShared => ?_,
            fun iter inside serves => ?_, fun access member => ?_⟩
        · rw [memory, Function.update_of_ne (by omega)]
          exact earlier.shared address isShared
        · rw [memory]
          rcases Nat.lt_succ_iff_lt_or_eq.mp inside with before | rfl
          · have apart : iter * blockSize < iters * blockSize :=
              Nat.mul_lt_mul_of_pos_right before positive
            rw [Function.update_of_ne (by unfold outputCell; omega)]
            exact earlier.written iter before serves
          · rw [Function.update_self, bin]
        · rw [touched] at member
          rcases List.mem_append.mp member with member | stored
          · rcases List.mem_append.mp member with before | loaded
            · exact earlier.touched access before
            · rw [List.mem_singleton] at loaded
              exact Or.inr ⟨_, serves, ⟨iters, rfl⟩, Or.inl loaded⟩
          · rw [List.mem_singleton] at stored
            exact
              Or.inr ⟨_, serves, ⟨iters, rfl⟩, Or.inr ⟨_, stored⟩⟩
      · have skips :=
          (earlier.ready.serves_iff (by omega)).mpr serves
        refine ⟨readyLater, ?_, fun iter inside isServed => ?_, ?_⟩
        · rw [OwnLane.executeGuarded_skip skips, OwnLane.execute_cmp]
          exact earlier.shared
        · rw [OwnLane.executeGuarded_skip skips, OwnLane.execute_cmp]
          rcases Nat.lt_succ_iff_lt_or_eq.mp inside with before | rfl
          · exact earlier.written iter before isServed
          · exact (serves isServed).elim
        · rw [OwnLane.executeGuarded_skip skips, OwnLane.execute_cmp]
          exact earlier.touched

end Loops

/-! ## The phases of a block -/

/-- The use of addresses while bins are zeroed. -/
def useZero (blockSize numBins numThreads address : Nat) : Use Nat :=
  let bin :=
    (address - MemorySystem.sharedMemBase) % (numBins * 4) / 4
  if MemorySystem.sharedMemBase ≤ address ∧
      bin % blockSize < numThreads then
    .owned (bin % blockSize)
  else
    .readOnly

/-- The use of addresses while elements are counted. -/
def useCount (address : Nat) : Use Nat :=
  if MemorySystem.sharedMemBase ≤ address then .addOnly else .readOnly

/-- The use of addresses while bins are written out. -/
def useWrite
    (numElements blockSize numBins numThreads address : Nat) :
    Use Nat :=
  let bin := (address - numElements * 4) % (numBins * 4) / 4
  if numElements * 4 ≤ address ∧ address < MemorySystem.sharedMemBase ∧
      (address - numElements * 4) % 4 = 0 ∧
        bin % blockSize < numThreads then
    .owned (bin % blockSize)
  else
    .readOnly

section Block

variable {numElements blockSize numBins block bin address : Nat}

/-- Bins are cells of blocks, both in shared memory and among the outputs. -/
theorem writer_eq (numElements numBins : Nat) :
    writer numElements numBins =
      cellWriter numElements numBins (· / numBins) := by
  funext address
  rw [writer, cellWriter, Nat.div_div_eq_div_mul, Nat.mul_comm 4]

theorem writer_sharedBin
    (inside : bin < numBins) :
    writer numElements numBins (sharedBin numBins block bin) =
      some block := by
  rw [writer_eq]
  exact cellWriter_shared inside

theorem writer_outputCell
    (fits :
      numElements * 4 + block * numBins * 4 + numBins * 4 ≤
        MemorySystem.sharedMemBase)
    (inside : bin < numBins) :
    writer numElements numBins
        (outputCell numElements numBins block bin) =
      some block := by
  have below := small_outputCell fits inside
  have above :
      numElements * 4 ≤ outputCell numElements numBins block bin := by
    unfold outputCell
    omega
  rw [writer, if_neg (Nat.not_le.mpr below), if_pos above, outputCell,
    block_of_cell inside]

theorem writer_input
    (below : numElements * 4 ≤ MemorySystem.sharedMemBase)
    (isInput : address < numElements * 4) :
    writer numElements numBins address = none := by
  rw [writer_eq]
  exact cellWriter_input below isInput

/-- A global cell of a block is one of its output cells. -/
theorem of_mine
    (isGlobal : IsGlobal address)
    (isMine : Mine (writer numElements numBins) block address) :
    numElements * 4 ≤ address ∧
      (address - numElements * 4) / (numBins * 4) = block := by
  rw [writer_eq] at isMine
  obtain ⟨above, ofBlock⟩ := output_of_mine isGlobal isMine
  rw [Nat.div_div_eq_div_mul, Nat.mul_comm 4] at ofBlock
  exact ⟨above, ofBlock⟩

end Block

/-! ## The code -/

section Code

variable {kernel : Kernel}
variable {blockSize iters : Nat}

theorem length_zeroLoop (blockSize iters : Nat) :
    ((List.range iters).flatMap (histogramZero blockSize)).length =
      9 * iters := by
  simp [histogramZero, guarded, List.length_flatMap, List.map_const',
    Nat.mul_comm]

theorem length_writeLoop (blockSize iters : Nat) :
    ((List.range iters).flatMap (histogramWrite blockSize)).length =
      11 * iters := by
  simp [histogramWrite, guarded, List.length_flatMap, List.map_const',
    Nat.mul_comm]

/-- Where the pieces of the kernel are. -/
structure Laid (kernel : Kernel) (blockSize iters : Nat) : Prop where
  size : kernel.size = 14 + 9 * iters + 11 * iters
  prolog : kernel.Holds 0 [mov 19 0, mov 12 4]
  zero :
    kernel.Holds 2 ((List.range iters).flatMap (histogramZero blockSize))
  barrier : kernel.fetch? (2 + 9 * iters) = some Benchmarks.barrier
  count : kernel.Holds (3 + 9 * iters) histogramCount
  secondBarrier :
    kernel.fetch? (13 + 9 * iters) = some Benchmarks.barrier
  write :
    kernel.Holds (14 + 9 * iters)
      ((List.range iters).flatMap (histogramWrite blockSize))

theorem laid_of_instructions
    (isHistogram :
      kernel.instructions = histogramInstructions blockSize iters) :
    Laid kernel blockSize iters := by
  have holds := kernel.holds_instructions
  rw [isHistogram, histogramInstructions] at holds
  have lengths : histogramCount.length = 10 := rfl
  refine
    ⟨?_, holds.left.left.left.left.left,
      holds.left.left.left.left.right.at ?_,
      (holds.left.left.left.right.at ?_).head,
      holds.left.left.right.at ?_, (holds.left.right.at ?_).head,
      holds.right.at ?_⟩
  · rw [Kernel.size, isHistogram, length_histogramInstructions]
    omega
  all_goals
    simp only [List.length_append, List.length_cons, List.length_nil,
      length_zeroLoop, lengths] <;>
      omega

/-- The first phase. -/
theorem Laid.zeroes
    (laid : Laid kernel blockSize iters) :
    OwnPaths.Does kernel 0 (2 + 9 * iters) (fun _ => True) fun own =>
      zeroAll blockSize iters (own.executeAll [mov 19 0, mov 12 4]) := by
  have prolog :
      OwnPaths.Does kernel 0 2 (fun _ => True)
        (OwnLane.executeAll [mov 19 0, mov 12 4]) :=
    OwnPaths.Does.straight laid.prolog (by decide)
  have each :
      ∀ iter ∈ List.range iters,
        ∀ pc,
          kernel.Holds pc (histogramZero blockSize iter) →
          OwnPaths.Does kernel pc
            (pc + (histogramZero blockSize iter).length) (fun _ => True)
            (OwnLane.executeGuarded (20 + iter : Nat)
              (zeroBody blockSize iter)) := by
    intro iter _ pc holds
    refine OwnPaths.Does.guarded holds (List.cons_ne_nil _ _) ?_
    simp [mov, add, mul, store, Instruction.Straight, Opcode.isControl]
  have loop := OwnPaths.Does.sequence each laid.zero
  rw [length_zeroLoop] at loop
  exact prolog.trans loop fun _ _ => trivial

/-- The second phase. -/
theorem Laid.counts
    (laid : Laid kernel blockSize iters) :
    OwnPaths.Does kernel (3 + 9 * iters) (13 + 9 * iters) (fun _ => True)
      (OwnLane.executeGuarded 4 countBody) := by
  have does :
      OwnPaths.Does kernel (3 + 9 * iters) (3 + 9 * iters + 10)
        (fun _ => True) (OwnLane.executeGuarded 4 countBody) :=
    OwnPaths.Does.guarded laid.count (List.cons_ne_nil _ _) (by decide)
  rw [Nat.add_right_comm] at does
  exact does

/-- The third phase. -/
theorem Laid.writes
    (laid : Laid kernel blockSize iters) :
    OwnPaths.Does kernel (14 + 9 * iters) kernel.size (fun _ => True)
      (writeAll blockSize iters) := by
  have each :
      ∀ iter ∈ List.range iters,
        ∀ pc,
          kernel.Holds pc (histogramWrite blockSize iter) →
          OwnPaths.Does kernel pc
            (pc + (histogramWrite blockSize iter).length) (fun _ => True)
            (OwnLane.executeGuarded (20 + iter : Nat)
              (writeBody blockSize iter)) := by
    intro iter _ pc holds
    refine OwnPaths.Does.guarded holds (List.cons_ne_nil _ _) ?_
    simp [mov, add, mul, load, store, Instruction.Straight,
      Opcode.isControl]
  have loop := OwnPaths.Does.sequence each laid.write
  rw [length_writeLoop, ← laid.size] at loop
  exact loop

end Code

end Histogram

end SimSm
