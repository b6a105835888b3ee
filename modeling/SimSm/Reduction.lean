import SimSm.Library.StridedSum
import SimSm.ThreadPhases

namespace SimSm

/-!
# The reduction kernel

Each block loads its elements into cells of shared memory and adds the cells up
in rounds, with strides that are halved from round to round.  A block size that
is no power of two leaves cells over that no round reaches.
-/

open Interleaving Outcome Benchmarks

/-! ## Strides -/

namespace Benchmarks

/-- Halving gives positive strides, none above the first one. -/
theorem mem_halvings
    {fuel stride other : Nat}
    (member : other ∈ halvings fuel stride) :
    0 < other ∧ other ≤ stride := by
  induction fuel generalizing stride with
  | zero => cases member
  | succ fuel inductionHypothesis =>
      rw [halvings] at member
      split at member
      · rename_i positive
        rcases List.mem_cons.mp member with rfl | member
        · exact ⟨positive, Nat.le_refl _⟩
        · obtain ⟨otherPositive, small⟩ := inductionHypothesis member
          exact ⟨otherPositive, by omega⟩
      · cases member

/-- All strides together are less than twice the first one. -/
theorem sum_halvings_le
    (fuel stride : Nat) :
    (halvings fuel stride).sum ≤ 2 * stride - 1 := by
  induction fuel generalizing stride with
  | zero => exact Nat.zero_le _
  | succ fuel inductionHypothesis =>
      rw [halvings]
      split
      · have later := inductionHypothesis (stride / 2)
        rw [List.sum_cons]
        omega
      · exact Nat.zero_le _

/-- Every stride is more than all later ones together. -/
theorem halvings_falling
    (fuel stride : Nat) :
    StridedSum.Falling (halvings fuel stride) := by
  induction fuel generalizing stride with
  | zero => trivial
  | succ fuel inductionHypothesis =>
      rw [halvings]
      split
      · have later := sum_halvings_le fuel (stride / 2)
        exact ⟨by omega, inductionHypothesis _⟩
      · trivial

/-- A stride has no more halvings than binary digits. -/
theorem length_halvings_lt
    {fuel stride digits : Nat}
    (small : stride < 2 ^ digits) :
    (halvings fuel stride).length ≤ digits := by
  induction fuel generalizing stride digits with
  | zero => exact Nat.zero_le _
  | succ fuel inductionHypothesis =>
      rw [halvings]
      split
      · cases digits with
        | zero => omega
        | succ digits =>
            have half : stride / 2 < 2 ^ digits := by
              rw [Nat.pow_succ] at small
              omega
            exact Nat.succ_le_succ (inductionHypothesis half)
      · exact Nat.zero_le _

/-- A stride of the reduction reaches from one half of the block to another. -/
theorem mem_strides
    {blockSize stride : Nat}
    (member : stride ∈ strides blockSize) :
    0 < stride ∧ 2 * stride ≤ blockSize := by
  obtain ⟨positive, small⟩ := mem_halvings member
  exact ⟨positive, by omega⟩

/-- There are registers for the rounds of up to 4096 threads. -/
theorem length_strides_le
    {blockSize : Nat}
    (small : blockSize ≤ 4096) :
    (strides blockSize).length ≤ 12 :=
  length_halvings_lt (by omega)

end Benchmarks

namespace Reduction

/-! ## Cells and registers -/

/-- The cell to which a block writes its sum. -/
def outputCell (numElements block : Nat) : Nat :=
  numElements * 4 + block * 4

/-- The block that writes to a cell. -/
abbrev writer (numElements blockSize : Nat) : Nat → Option Nat :=
  cellWriter numElements blockSize fun block => block

/-- The elements of a block, and zeros in place of those that it lacks. -/
def segment
    (numElements blockSize : Nat)
    (input : Nat → Word)
    (block localId : Nat) :
    Word :=
  if localId < threadsInBlock numElements blockSize block then
    input (block * blockSize + localId)
  else
    0

/-- What the kernel leaves in the output cells. -/
def goal
    (numElements blockSize : Nat)
    (input : Nat → Word)
    (address : Nat) :
    Word :=
  if (address - numElements * 4) % 4 = 0 then
    StridedSum.rounds (strides blockSize)
      (segment numElements blockSize input
        ((address - numElements * 4) / 4)) 0
  else
    0

/-- The registers that the grid gives to a thread. -/
structure Registers
    (numElements blockSize block localId : Nat)
    (lane : LaneState) :
    Prop where
  input :
    lane.read 0 = BitVec.ofNat 32 ((block * blockSize + localId) * 4)
  cell :
    lane.read 1 = BitVec.ofNat 32 (sharedCell blockSize block localId)
  output : lane.read 2 = BitVec.ofNat 32 (outputCell numElements block)
  first : lane.read 3 = BitVec.ofNat 32 (flag (localId = 0))
  active :
    ∀ round ∈ (strides blockSize).zipIdx,
      lane.read (20 + round.2 : Nat) =
        BitVec.ofNat 32 (flag (localId < round.1))

/-- The registers of a thread once register 19 is zero. -/
structure Ready
    (numElements blockSize block localId : Nat)
    (lane : LaneState) :
    Prop extends
    Registers numElements blockSize block localId lane where
  zero : lane.read 19 = BitVec.ofNat 32 0

/-- The registers that the kernel computes with. -/
def Scratch (register : Int) : Prop :=
  register = -1 ∨ 10 ≤ register ∧ register ≤ 16

instance (register : Int) : Decidable (Scratch register) :=
  inferInstanceAs (Decidable (_ ∨ _))

section Lanes

variable {numElements blockSize block localId : Nat}
variable {lane other : LaneState}

/-- A round has a register for its predicate. -/
theorem round_lt
    (small : blockSize ≤ 4096)
    {round : Nat × Nat}
    (member : round ∈ (strides blockSize).zipIdx) :
    round.1 ∈ strides blockSize ∧ 20 + round.2 < 32 := by
  obtain ⟨stride, step⟩ := round
  obtain ⟨_, inside, isStride⟩ := List.mem_zipIdx member
  have few := length_strides_le small
  refine ⟨?_, by dsimp only; omega⟩
  dsimp only
  rw [isStride]
  exact List.getElem_mem _

theorem Registers.congr
    (small : blockSize ≤ 4096)
    (registers : Registers numElements blockSize block localId lane)
    (same :
      ∀ register : Int,
        RegisterOperand register →
        ¬ Scratch register →
        register ≠ 19 →
        other.read register = lane.read register) :
    Registers numElements blockSize block localId other where
  input := by
    rw [same 0 (by decide) (by decide) (by decide), registers.input]
  cell := by
    rw [same 1 (by decide) (by decide) (by decide), registers.cell]
  output := by
    rw [same 2 (by decide) (by decide) (by decide), registers.output]
  first := by
    rw [same 3 (by decide) (by decide) (by decide), registers.first]
  active round member := by
    have inside := (round_lt small member).2
    rw [same (20 + round.2 : Nat) ⟨by omega, by omega⟩
      (by unfold Scratch; omega) (by omega),
      registers.active round member]

/-- A thread of the reduction grid starts with these registers. -/
theorem builtLane_registers
    {warpSize : Nat}
    (positive : 0 < warpSize)
    (small : blockSize ≤ 4096)
    {warps : List Warp}
    (ran :
      buildWarps (threadsInBlock numElements blockSize block) warpSize
          (reductionThread numElements blockSize warpSize block) =
        .ok warps)
    (inside : localId < threadsInBlock numElements blockSize block) :
    Registers numElements blockSize block localId
      (builtLane warpSize
        (reductionThread numElements blockSize warpSize block) localId) := by
  obtain ⟨thread, isBuilt⟩ := buildWarps_thread positive ran inside
  obtain ⟨_, _, split⟩ := lane_of_thread positive inside
  rw [builtLane, isBuilt]
  change Registers numElements blockSize block localId thread.lane
  unfold reductionThread at isBuilt
  dsimp only at isBuilt
  rw [split] at isBuilt
  have few := length_strides_le small
  have reads
      {index value : Nat}
      (member :
        (index, value) ∈
          [(0, (block * blockSize + localId) * 4),
              (1,
                MemorySystem.sharedMemBase + block * blockSize * 4 +
                  localId * 4),
              (2, numElements * 4 + block * 4),
              (3, flag (localId = 0))] ++
            (strides blockSize).zipIdx.map fun round =>
              (20 + round.2, flag (localId < round.1))) :
      thread.lane.read index = BitVec.ofNat 32 value := by
    refine
      @writeRegisters_read _ _ _
        ([0, 1, 2, 3] ++
          (List.range (strides blockSize).length).map (20 + ·)) ?_ ?_ ?_
        isBuilt _ _ member
    · rw [List.map_append, List.map_map]
      congr 1
      rw [List.range_eq_range', ← List.zipIdx_map_snd 0 (strides blockSize),
        List.map_map]
      rfl
    · intro index isIndex
      simp at isIndex
      omega
    · refine List.Nodup.append (by decide) ?_ ?_
      · exact List.nodup_range.map fun first second same => by
          omega
      · intro index first second
        obtain ⟨step, _, rfl⟩ := List.mem_map.mp second
        simp at first
        omega
  refine
    ⟨reads (by simp), reads (by simp [sharedCell]),
      reads (by simp [outputCell]), reads (by simp),
      fun round member => reads ?_⟩
  exact List.mem_append_right _ (List.mem_map.mpr ⟨round, member, rfl⟩)

end Lanes

/-! ## The bodies of the kernel, thread by thread -/

/-- Each thread loads its element. -/
def loadBody : List Instruction :=
  [load 10 0, store 10 1]

/-- The body of a round: the cell one stride further is added. -/
def roundBody (stride : Nat) : List Instruction :=
  [load 10 1, mov 15 (stride * 4 : Nat), add 16 1 15, load 11 16,
    add 12 10 11, store 12 1]

/-- The body that writes the sum out. -/
def finalBody : List Instruction :=
  [load 10 1, store 10 2]

theorem loadBody_scratch : ∀ inst ∈ loadBody, Scratch inst.dst := by
  decide

theorem roundBody_straight (stride : Nat) :
    ∀ inst ∈ roundBody stride, inst.Straight := by
  simp [roundBody, mov, add, load, store, Instruction.Straight,
    Opcode.isControl]

theorem roundBody_scratch (stride : Nat) :
    ∀ inst ∈ roundBody stride, Scratch inst.dst := by
  simp [roundBody, mov, add, load, store, Scratch]

/-- What a block of the reduction grid runs with. -/
structure Setting
    (numElements blockSize warpSize block : Nat) :
    Prop where
  small : blockSize ≤ 4096
  someLanes : 0 < warpSize
  narrow : warpSize ≤ 32
  someElements : block * blockSize < numElements
  fits : numElements * 4 + block * 4 + 4 ≤ MemorySystem.sharedMemBase

section Bodies

variable {numElements blockSize warpSize block localId : Nat}
variable {own : OwnLane}

/-- Instructions that compute in scratch registers keep the others. -/
theorem Scratch.spares
    {code : List Instruction}
    (scratch : ∀ inst ∈ code, Scratch inst.dst)
    {register : Int}
    (notScratch : ¬ Scratch register) :
    ∀ inst ∈ code,
      (-1 ≤ inst.dst ∧ inst.dst < 32) ∧ inst.dst ≠ register := by
  intro inst member
  have isScratch := scratch inst member
  refine ⟨?_, fun isDst => notScratch (isDst ▸ isScratch)⟩
  unfold Scratch at isScratch
  omega

/-- Addresses of cells of a block are small. -/
theorem Setting.pointer_cell
    (setting : Setting numElements blockSize warpSize block)
    {index : Nat}
    (inside : index < blockSize) :
    LaneState.pointer
        (BitVec.ofNat 32 (sharedCell blockSize block index)) =
      sharedCell blockSize block index := by
  have fits := setting.fits
  have someElements := setting.someElements
  have small := setting.small
  apply LaneState.pointer_ofNat
  unfold sharedCell
  unfold MemorySystem.sharedMemBase at fits ⊢
  omega

/-- A thread stores its element in its cell. -/
theorem load_registers
    (setting : Setting numElements blockSize warpSize block)
    (registers :
      Registers numElements blockSize block localId own.lane)
    (isThread : localId < blockSize)
    (isElement : block * blockSize + localId < numElements) :
    let address := (block * blockSize + localId) * 4
    let cell := sharedCell blockSize block localId
    let after := own.executeAll loadBody
    Registers numElements blockSize block localId after.lane ∧
      after.memory =
          Function.update own.memory cell (own.memory address) ∧
        after.touched =
          own.touched ++ [.load address] ++
            [.store cell (own.memory address)] := by
  dsimp only
  have elementAddress :
      LaneState.pointer
          (BitVec.ofNat 32 ((block * blockSize + localId) * 4)) =
        (block * blockSize + localId) * 4 := by
    have fits := setting.fits
    apply LaneState.pointer_ofNat
    unfold MemorySystem.sharedMemBase at fits
    omega
  refine ⟨registers.congr setting.small ?_, ?_⟩
  · intro register valid notScratch _
    exact
      OwnLane.read_executeAll valid
        (Scratch.spares loadBody_scratch notScratch) own
  · rw [loadBody]
    simp (disch := decide) only [OwnLane.executeAll_cons,
      OwnLane.executeAll_nil, OwnLane.execute_load, OwnLane.execute_store,
      LaneState.read_write, registers.input, registers.cell, if_pos, if_neg,
      Int.reduceEq, elementAddress, setting.pointer_cell isThread, and_self]

/-- Register 19 becomes zero, and nothing else changes. -/
theorem Registers.zeroed
    (small : blockSize ≤ 4096)
    (registers :
      Registers numElements blockSize block localId own.lane) :
    Ready numElements blockSize block localId
        (own.executeAll [mov 19 0]).lane ∧
      (own.executeAll [mov 19 0]).memory = own.memory ∧
      (own.executeAll [mov 19 0]).touched = own.touched := by
  refine ⟨⟨registers.congr small ?_, ?_⟩, ?_⟩
  · intro register valid _ notZero
    refine OwnLane.read_executeAll valid (fun inst member => ?_) own
    rw [List.mem_singleton] at member
    subst member
    exact ⟨by decide, Ne.symm notZero⟩
  · simp (disch := decide) only [OwnLane.executeAll_cons,
      OwnLane.executeAll_nil, OwnLane.execute_mov, LaneState.read_write,
      if_pos]
    rfl
  · simp only [OwnLane.executeAll_cons, OwnLane.executeAll_nil,
      OwnLane.execute_mov, and_self]

/-- A round keeps the registers that later rounds need. -/
theorem Ready.executeRound
    (ready : Ready numElements blockSize block localId own.lane)
    (small : blockSize ≤ 4096)
    (predicate : Int)
    (stride : Nat) :
    Ready numElements blockSize block localId
      (own.executeGuarded predicate (roundBody stride)).lane := by
  have same
      (register : Int)
      (valid : RegisterOperand register)
      (notScratch : ¬ Scratch register) :
      (own.executeGuarded predicate (roundBody stride)).lane.read
          register =
        own.lane.read register :=
    OwnLane.read_executeGuarded valid
      (Scratch.spares (roundBody_scratch stride) notScratch) own
  refine
    ⟨ready.toRegisters.congr small fun register valid notScratch _ =>
        same register valid notScratch, ?_⟩
  rw [same 19 (by decide) (by decide), ready.zero]

/-- A set flag is not zero. -/
theorem flag_ne_zero
    {holds : Bool}
    (isSet : holds = true) :
    BitVec.ofNat 32 (flag holds) ≠ BitVec.ofNat 32 0 := by
  subst isSet
  decide

/-- A thread below the stride adds the cell one stride further to its own. -/
theorem round_active
    (setting : Setting numElements blockSize warpSize block)
    (ready : Ready numElements blockSize block localId own.lane)
    {stride step : Nat}
    (member : (stride, step) ∈ (strides blockSize).zipIdx)
    (active : localId < stride) :
    let cell := sharedCell blockSize block localId
    let other := sharedCell blockSize block (localId + stride)
    let after :=
      own.executeGuarded (20 + step : Nat) (roundBody stride)
    after.memory =
        Function.update own.memory cell
          (own.memory cell + own.memory other) ∧
      after.touched =
        own.touched ++ [.load cell] ++ [.load other] ++
          [.store cell (own.memory cell + own.memory other)] := by
  dsimp only
  have reaches := (mem_strides (round_lt setting.small member).1).2
  dsimp only at reaches
  have runs :
      own.lane.read (20 + step : Nat) ≠ own.lane.read 19 := by
    rw [ready.active _ member, ready.zero]
    exact flag_ne_zero (decide_eq_true active)
  have further :
      sharedCell blockSize block localId + stride * 4 =
        sharedCell blockSize block (localId + stride) := by
    unfold sharedCell
    omega
  have ownCell := @Setting.pointer_cell _ _ _ _ setting localId (by omega)
  have otherCell :=
    @Setting.pointer_cell _ _ _ _ setting (localId + stride) (by omega)
  rw [OwnLane.executeGuarded_run runs, roundBody]
  simp (disch := decide) only [OwnLane.executeAll_cons,
    OwnLane.executeAll_nil, OwnLane.execute_cmp, OwnLane.execute_mov,
    OwnLane.execute_add, OwnLane.execute_load, OwnLane.execute_store,
    LaneState.read_write, LaneState.read_predicate, ready.cell,
    BitVec.ofInt_natCast, ← BitVec.ofNat_add, further, if_pos, if_neg,
    Int.reduceEq, ownCell, otherCell, and_self]

/-- The other threads leave the cells alone. -/
theorem round_inactive
    (ready : Ready numElements blockSize block localId own.lane)
    {stride step : Nat}
    (member : (stride, step) ∈ (strides blockSize).zipIdx)
    (inactive : ¬ localId < stride) :
    let after :=
      own.executeGuarded (20 + step : Nat) (roundBody stride)
    after.memory = own.memory ∧ after.touched = own.touched := by
  dsimp only
  have skips :
      own.lane.read (20 + step : Nat) = own.lane.read 19 := by
    rw [ready.active _ member, ready.zero, decide_eq_false inactive]
    rfl
  rw [OwnLane.executeGuarded_skip skips, OwnLane.execute_cmp]
  exact ⟨rfl, rfl⟩

/-- The first thread writes its cell out. -/
theorem final_first
    (setting : Setting numElements blockSize warpSize block)
    (someThreads : 0 < blockSize)
    (ready : Ready numElements blockSize block 0 own.lane) :
    let cell := sharedCell blockSize block 0
    let output := outputCell numElements block
    let after := own.executeGuarded 3 finalBody
    after.memory =
        Function.update own.memory output (own.memory cell) ∧
      after.touched =
        own.touched ++ [.load cell] ++
          [.store output (own.memory cell)] := by
  dsimp only
  have runs : own.lane.read 3 ≠ own.lane.read 19 := by
    rw [ready.first, ready.zero]
    exact flag_ne_zero rfl
  have outputAddress :
      LaneState.pointer
          (BitVec.ofNat 32 (outputCell numElements block)) =
        outputCell numElements block := by
    have fits := setting.fits
    apply LaneState.pointer_ofNat
    unfold outputCell
    unfold MemorySystem.sharedMemBase at fits
    omega
  rw [OwnLane.executeGuarded_run runs, finalBody]
  simp (disch := decide) only [OwnLane.executeAll_cons,
    OwnLane.executeAll_nil, OwnLane.execute_cmp, OwnLane.execute_load,
    OwnLane.execute_store, LaneState.read_write, LaneState.read_predicate,
    ready.cell, ready.output, if_pos, if_neg, Int.reduceEq,
    setting.pointer_cell someThreads, outputAddress, and_self]

/-- The other threads are done. -/
theorem final_others
    (ready : Ready numElements blockSize block localId own.lane)
    (notFirst : localId ≠ 0) :
    let after := own.executeGuarded 3 finalBody
    after.memory = own.memory ∧ after.touched = own.touched := by
  dsimp only
  have skips : own.lane.read 3 = own.lane.read 19 := by
    rw [ready.first, ready.zero, decide_eq_false notFirst]
    rfl
  rw [OwnLane.executeGuarded_skip skips, OwnLane.execute_cmp]
  exact ⟨rfl, rfl⟩

end Bodies

/-! ## The code -/

/-- The code of some rounds and of writing the sum out. -/
def roundsCode (rounds : List (Nat × Nat)) : List Instruction :=
  rounds.flatMap (fun round => reductionRound round.1 round.2) ++
    guarded 3 finalBody

theorem length_roundsCode_pos (rounds : List (Nat × Nat)) :
    0 < (roundsCode rounds).length := by
  rw [roundsCode, List.length_append]
  exact Nat.add_pos_right _ (by decide)

/-- Where the pieces of the kernel are. -/
structure Laid (kernel : Kernel) (blockSize : Nat) : Prop where
  size :
    kernel.size = 4 + (roundsCode (strides blockSize).zipIdx).length
  load : kernel.Holds 0 loadBody
  barrier : kernel.fetch? 2 = some Benchmarks.barrier
  zero : kernel.Holds 3 [mov 19 0]
  rounds : kernel.Holds 4 (roundsCode (strides blockSize).zipIdx)

/-- The generated kernel has its pieces there. -/
theorem laid_generated
    {blockSize : Nat}
    (isInt : blockSize < 2 ^ 31) :
    Laid (generateReductionKernel blockSize isInt) blockSize := by
  have holds :=
    (generateReductionKernel blockSize isInt).holds_instructions
  have shape :
      (generateReductionKernel blockSize isInt).instructions =
        loadBody ++ [Benchmarks.barrier] ++ [mov 19 0] ++
          roundsCode (strides blockSize).zipIdx := by
    rw [roundsCode, ← List.append_assoc]
    rfl
  rw [shape] at holds
  refine
    ⟨?_, holds.left.left.left, (holds.left.left.right.at ?_).head,
      holds.left.right.at ?_, holds.right.at ?_⟩
  · rw [Kernel.size, shape, List.length_append]
    rfl
  all_goals rfl

end Reduction

end SimSm
