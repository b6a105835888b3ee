import SimSm.VectorAdd

namespace SimSm

/-!
# The copy

Every thread copies cells one stride apart from each other.  Threads that are at
one offset copy the same cells, so it does not matter how the pattern spreads
the offsets.
-/

open Interleaving Outcome

namespace Memcpy

open Benchmarks

/-- The cells of the copies, and what they are to hold. -/
def target (data : Nat → Word) (address : Nat) : Option Word :=
  if 1000000 ≤ address ∧ address < 2000000 then
    some (data (address - 1000000))
  else
    none

/-- The registers of a thread name its two cells and its stride. -/
structure Pointers (cell stride : Nat) (lane : LaneState) : Prop where
  source : lane.read 0 = BitVec.ofNat 32 cell
  copy : lane.read 1 = BitVec.ofNat 32 (1000000 + cell)
  stride : lane.read 2 = BitVec.ofNat 32 stride

/-- What a thread touches in one iteration. -/
def turnTouched (data : Nat → Word) (cell : Nat) : List (Access Nat Word) :=
  [.load cell, .store (1000000 + cell) (data cell)]

/-- A thread that is alone, after some iterations. -/
structure After
    (data : Nat → Word)
    (iterations offset stride turns : Nat)
    (own : OwnLane) : Prop where
  pointers :
    turns < iterations →
    Pointers (offset + turns * stride) stride own.lane
  touched :
    own.touched =
      (List.range turns).flatMap fun i =>
        turnTouched data (offset + i * stride)
  sources : ∀ address < 1000000, own.memory address = data address

section Turns

variable {data : Nat → Word}
variable {iterations offset stride turns cell : Nat}
variable {own : OwnLane}
variable {lane : LaneState}

/-- The value that is copied is no pointer. -/
theorem Pointers.write
    (pointers : Pointers cell stride lane)
    (value : Word) :
    Pointers cell stride (lane.write 3 value) := by
  have keeps (pointer : Nat) (small : pointer ≤ 2) :
      (lane.write 3 value).read pointer = lane.read pointer :=
    LaneState.read_write_of_ne (by decide) ⟨by omega, by omega⟩ (by omega)
      value lane
  exact
    ⟨(keeps 0 (by decide)).trans pointers.source,
      (keeps 1 (by decide)).trans pointers.copy,
      (keeps 2 (by decide)).trans pointers.stride⟩

/-- Both pointers are moved on by the stride. -/
theorem Pointers.next
    (pointers : Pointers cell stride lane)
    (memory : Nat → Word)
    (touched : List (Access Nat Word)) :
    ∃ moved,
      OwnLane.executeAll [add 0 0 2, add 1 1 2] ⟨lane, memory, touched⟩ =
          ⟨moved, memory, touched⟩ ∧
        Pointers (cell + stride) stride moved := by
  let first := lane.write 0 (lane.read 0 + lane.read 2)
  let moved := first.write 1 (first.read 1 + first.read 2)
  have keepsFirst (pointer : Nat) (isOther : pointer = 1 ∨ pointer = 2) :
      first.read pointer = lane.read pointer :=
    LaneState.read_write_of_ne (by decide) ⟨by omega, by omega⟩ (by omega)
      _ lane
  have keepsMoved (pointer : Nat) (isOther : pointer = 0 ∨ pointer = 2) :
      moved.read pointer = first.read pointer :=
    LaneState.read_write_of_ne (by decide) ⟨by omega, by omega⟩ (by omega)
      _ first
  have source : first.read 0 = lane.read 0 + lane.read 2 := by
    rw [LaneState.read_write ⟨by decide, by decide⟩
      ⟨by decide, by decide⟩, if_pos rfl]
  have copy : moved.read 1 = first.read 1 + first.read 2 := by
    rw [LaneState.read_write ⟨by decide, by decide⟩
      ⟨by decide, by decide⟩, if_pos rfl]
  refine ⟨moved, ?_, ?_, ?_, ?_⟩
  · rw [OwnLane.executeAll_cons, OwnLane.execute_add,
      OwnLane.executeAll_cons, OwnLane.execute_add, OwnLane.executeAll_nil]
  · rw [BitVec.ofNat_add, ← pointers.source, ← pointers.stride, ← source]
    exact keepsMoved 0 (.inl rfl)
  · have isCopy : first.read 1 = BitVec.ofNat 32 (1000000 + cell) :=
      (keepsFirst 1 (.inl rfl)).trans pointers.copy
    have isStride : first.read 2 = BitVec.ofNat 32 stride :=
      (keepsFirst 2 (.inr rfl)).trans pointers.stride
    rw [copy, isCopy, isStride, ← BitVec.ofNat_add, Nat.add_assoc]
  · exact
      (keepsMoved 2 (.inr rfl)).trans
        ((keepsFirst 2 (.inr rfl)).trans pointers.stride)

/-- One iteration copies the next cell. -/
theorem After.turn
    (after : After data iterations offset stride turns own)
    (isTurn : turns < iterations)
    (inside : offset + turns * stride < 1000000) :
    After data iterations offset stride (turns + 1)
      (own.executeAll (memcpyTurn iterations turns)) := by
  obtain ⟨pointersNow, touched, sources⟩ := after
  have pointers := pointersNow isTurn
  have moreTouched (cell : Nat) (isCell : cell = offset + turns * stride) :
      own.touched ++ turnTouched data cell =
        (List.range (turns + 1)).flatMap fun i =>
          turnTouched data (offset + i * stride) := by
    rw [List.range_succ, List.flatMap_append, ← touched,
      List.flatMap_singleton, isCell]
  generalize isCell : offset + turns * stride = cell
    at pointers inside moreTouched
  have small {pointer : Nat} (below : pointer < 2000000) :
      LaneState.pointer (BitVec.ofNat 32 pointer) = pointer :=
    LaneState.pointer_ofNat (below.trans (by decide))
  let lane := own.lane.write 3 (data cell)
  have pointersKept : Pointers cell stride lane := pointers.write _
  have value : lane.read 3 = data cell := by
    rw [LaneState.read_write ⟨by decide, by decide⟩
      ⟨by decide, by decide⟩, if_pos rfl]
  have copied :
      own.executeAll [load 3 0, store 3 1] =
        ⟨lane, Function.update own.memory (1000000 + cell) (data cell),
          own.touched ++ turnTouched data cell⟩ := by
    rw [OwnLane.executeAll_cons, OwnLane.execute_load (by decide),
      pointers.source, small (by omega), sources cell inside,
      OwnLane.executeAll_cons, OwnLane.execute_store (by decide)]
    dsimp only
    rw [value, pointersKept.copy, small (by omega), List.append_assoc]
    rfl
  have sourcesKept :
      ∀ address < 1000000,
        Function.update own.memory (1000000 + cell) (data cell) address =
          data address := by
    intro address below
    rw [Function.update_of_ne (by omega)]
    exact sources address below
  rw [memcpyTurn, OwnLane.executeAll_append, copied]
  split
  · obtain ⟨moved, isMoved, pointersMoved⟩ :=
      pointersKept.next
        (Function.update own.memory (1000000 + cell) (data cell))
        (own.touched ++ turnTouched data cell)
    rw [isMoved]
    refine ⟨fun _ => ?_, moreTouched cell rfl, sourcesKept⟩
    rw [Nat.succ_mul, ← Nat.add_assoc, isCell]
    exact pointersMoved
  · rename_i last
    exact
      ⟨fun isNext => (last isNext).elim, moreTouched cell rfl, sourcesKept⟩

/-- All iterations one after the other. -/
theorem after_turns
    (pointers : Pointers offset stride lane)
    (inside : ∀ i < iterations, offset + i * stride < 1000000) :
    After data iterations offset stride iterations
      (OwnLane.executeAll (memcpyInstructions iterations)
        ⟨lane, data, []⟩) := by
  have each :
      ∀ turns ≤ iterations,
        After data iterations offset stride turns
          (OwnLane.executeAll
            ((List.range turns).flatMap (memcpyTurn iterations))
            ⟨lane, data, []⟩) := by
    intro turns
    induction turns with
    | zero =>
        intro _
        refine ⟨fun _ => ?_, rfl, fun _ _ => rfl⟩
        rw [Nat.zero_mul, Nat.add_zero]
        exact pointers
    | succ turns inductionHypothesis =>
        intro isTurn
        rw [List.range_succ, List.flatMap_append, OwnLane.executeAll_append,
          List.flatMap_singleton]
        exact
          (inductionHypothesis (Nat.le_of_succ_le isTurn)).turn isTurn
            (inside turns isTurn)
  exact each iterations (Nat.le_refl _)

/-- The accesses of a thread keep to the agreement on the copies. -/
theorem agrees_turnTouched
    {scope : Nat → Prop}
    (inScope : ∀ address < 2000000, scope address)
    (inside : cell < 1000000) :
    ∀ access ∈ turnTouched data cell,
      Agrees (target data) scope access := by
  intro access member
  simp only [turnTouched, List.mem_cons, List.not_mem_nil, or_false]
    at member
  rcases member with rfl | rfl
  · exact ⟨inScope _ (by omega), if_neg (by omega)⟩
  · refine ⟨inScope _ (by omega), ?_⟩
    rw [target, if_pos (by omega), Nat.add_sub_cancel_left]

end Turns

section Grid

variable {pattern : String}
variable {numThreads blockSize warpSize iterations globalId : Nat}
variable {grid : Grid}
variable {data : Nat → Word}

/-- The cell that a thread copies in an iteration. -/
def cellOf (pattern : String) (numThreads globalId i : Nat) : Nat :=
  memcpyOffset pattern numThreads globalId +
    i * memcpyStride pattern numThreads

/-- Offsets are below the stride, or all cells are the first one. -/
theorem offset_lt_stride
    (isThread : globalId < numThreads) :
    memcpyOffset pattern numThreads globalId <
        memcpyStride pattern numThreads ∨
      memcpyOffset pattern numThreads globalId = 0 ∧
        memcpyStride pattern numThreads = 0 := by
  unfold memcpyOffset memcpyStride
  split
  · exact .inl (by omega)
  · split
    · exact .inl (by omega)
    · split
      · have residue :=
          Nat.mod_lt (globalId * 101 % 2 ^ 64) (Nat.zero_lt_of_lt isThread)
        exact .inl (by omega)
      · exact .inr ⟨rfl, rfl⟩

/-- No thread reads past the strides of all iterations. -/
theorem cellOf_lt
    (fits : iterations * memcpyStride pattern numThreads ≤ 1000000)
    (isThread : globalId < numThreads)
    {i : Nat}
    (isIteration : i < iterations) :
    cellOf pattern numThreads globalId i < 1000000 := by
  unfold cellOf
  rcases @offset_lt_stride pattern _ _ isThread with below | ⟨isZero, none⟩
  · generalize memcpyStride pattern numThreads = stride at *
    have upTo : (i + 1) * stride ≤ iterations * stride :=
      Nat.mul_le_mul_right _ isIteration
    rw [Nat.succ_mul] at upTo
    omega
  · rw [isZero, none, Nat.mul_zero]
    decide

/-- The instructions of the kernel are loads, stores and additions. -/
theorem straight_instructions
    {inst : Instruction}
    (member : inst ∈ memcpyInstructions iterations) :
    inst.Straight := by
  obtain ⟨i, _, isTurn⟩ := List.mem_flatMap.mp member
  rw [memcpyTurn, List.mem_append] at isTurn
  rcases isTurn with copies | moves
  · simp only [List.mem_cons, List.not_mem_nil, or_false] at copies
    rcases copies with rfl | rfl <;> exact ⟨rfl, Opcode.noConfusion⟩
  · split at moves
    · simp only [List.mem_cons, List.not_mem_nil, or_false] at moves
      rcases moves with rfl | rfl <;> exact ⟨rfl, Opcode.noConfusion⟩
    · cases moves

/-- Every instruction of the kernel is straight. -/
theorem does
    (isInt : iterations < 2 ^ 31) :
    OwnPaths.Does (generateMemcpyKernel iterations isInt) 0
      (generateMemcpyKernel iterations isInt).size (fun _ => True)
      (OwnLane.executeAll (memcpyInstructions iterations)) := by
  have straight :=
    @OwnPaths.Does.straight (generateMemcpyKernel iterations isInt) 0
      (fun _ => True) (memcpyInstructions iterations)
      (Kernel.holds_instructions _) fun _ => straight_instructions
  rwa [Nat.zero_add] at straight

/-- A thread of the grid starts with its two cells and its stride. -/
theorem builtLane_pointers
    (block localId : Nat) :
    Pointers
      (memcpyOffset pattern numThreads (block * blockSize + localId))
      (memcpyStride pattern numThreads)
      (builtLane warpSize
        (memcpyThread pattern numThreads blockSize warpSize block)
        localId) := by
  let offset := memcpyOffset pattern numThreads (block * blockSize + localId)
  obtain ⟨thread, built, _⟩ :
      ∃ thread,
        memcpyThread pattern numThreads blockSize warpSize block
            (localId / warpSize) (localId % warpSize) =
          .ok thread ∧ _ :=
    writeRegisters_succeeds (by simp) _
  rw [builtLane, built]
  change Pointers _ _ thread.lane
  unfold memcpyThread at built
  dsimp only at built
  rw [Nat.div_add_mod'] at built
  have reads
      {index value : Nat}
      (member :
        (index, value) ∈
          [(0, 0 + offset), (1, 1000000 + offset),
            (2, memcpyStride pattern numThreads)]) :
      thread.lane.read index = BitVec.ofNat 32 value :=
    @writeRegisters_read _ _ _ [0, 1, 2] rfl (by decide) (by decide) built _
      _ member
  exact ⟨reads (by simp [offset]), reads (by simp [offset]), reads (by simp)⟩

/-- What a thread of the grid touches alone. -/
theorem aloneAtEnd_touched
    {block localId : Nat}
    (fits : iterations * memcpyStride pattern numThreads ≤ 1000000)
    (isThread : block * blockSize + localId < numThreads) :
    (GPU.aloneAtEnd warpSize
        (memcpyThread pattern numThreads blockSize warpSize)
        (OwnLane.executeAll (memcpyInstructions iterations)) data block
        localId).touched =
      (List.range iterations).flatMap fun i =>
        turnTouched data
          (cellOf pattern numThreads (block * blockSize + localId) i) :=
  (after_turns (builtLane_pointers block localId) fun _ isIteration =>
    cellOf_lt fits isThread isIteration).touched

/-- The instructions of the kernel have registers that exist. -/
theorem wellFormed
    (isInt : iterations < 2 ^ 31) :
    (generateMemcpyKernel iterations isInt).WellFormed := by
  intro inst member
  refine ⟨?_, (straight_instructions member).1⟩
  obtain ⟨i, _, isTurn⟩ := List.mem_flatMap.mp member
  rw [memcpyTurn, List.mem_append] at isTurn
  rcases isTurn with copies | moves
  · simp only [List.mem_cons, List.not_mem_nil, or_false] at copies
    rcases copies with rfl | rfl <;> decide
  · split at moves
    · simp only [List.mem_cons, List.not_mem_nil, or_false] at moves
      rcases moves with rfl | rfl <;> decide
    · cases moves

/-- All threads keep to the agreement on the copies. -/
theorem threadsKeep
    {scope : Nat → Prop}
    (inScope : ∀ address < 2000000, scope address)
    (fits : iterations * memcpyStride pattern numThreads ≤ 1000000) :
    GPU.ThreadsKeep numThreads blockSize warpSize
      (memcpyThread pattern numThreads blockSize warpSize)
      (OwnLane.executeAll (memcpyInstructions iterations)) data
      (target data) scope := by
  intro block _ localId isThread access member
  have isElement := (element_of_thread isThread).2
  rw [aloneAtEnd_touched fits isElement] at member
  obtain ⟨i, isTurn, touched⟩ := List.mem_flatMap.mp member
  exact
    agrees_turnTouched inScope
      (cellOf_lt fits isElement (List.mem_range.mp isTurn)) access touched

/--
On every GPU, under every policy, with every distribution and every pattern of
the threads, a run of the copy leaves the cells that the threads read a million
bytes further on, and nothing else, as long as the strides stay below the
copies.
-/
theorem memcpy_correct
    {σ : Type}
    [WarpScheduler σ]
    [LawfulWarpScheduler σ]
    (someThreads : 0 < blockSize)
    (positive : 0 < warpSize)
    (narrow : warpSize ≤ 32)
    (noWrap : numThreads + blockSize ≤ 2 ^ 64)
    (isInt : iterations < 2 ^ 31)
    (fits : iterations * memcpyStride pattern numThreads ≤ 1000000)
    (built :
      buildMemcpyGrid numThreads blockSize warpSize pattern = .ok grid)
    {gpu after : GPU σ}
    (nonempty : gpu.sms ≠ [])
    {config : SystemConfig}
    {req : KernelResourceRequirements}
    {fuel : Nat}
    (ran :
      gpu.launchAndRun grid config req
          (generateMemcpyKernel iterations isInt) fuel =
        some (.ok after)) :
    (∀ globalId < numThreads,
      ∀ i < iterations,
        after.globalMemory.data
            (1000000 + cellOf pattern numThreads globalId i) =
          gpu.globalMemory.data (cellOf pattern numThreads globalId i)) ∧
      ∀ address,
        (∀ globalId < numThreads,
          ∀ i < iterations,
            address ≠ 1000000 + cellOf pattern numThreads globalId i) →
        after.globalMemory.data address = gpu.globalMemory.data address := by
  have inThreads
      {block localId : Nat}
      (isThread : localId < threadsInBlock numThreads blockSize block) :=
    (element_of_thread isThread).2
  have final (address : Nat) :=
    GPU.agreeing_threads someThreads positive narrow built
      (fun _ _ _ _ isBuilt => writeRegisters_blockId isBuilt)
      (fun _ member => (straight_instructions member).2) (does isInt)
      (threadsKeep
        (fun _ small => isGlobal_iff.mpr (small.trans (by decide))) fits)
      nonempty ran address
  have stores
      {block localId address : Nat}
      (isThread : localId < threadsInBlock numThreads blockSize block) :
      Stored
          (GPU.aloneAtEnd warpSize
            (memcpyThread pattern numThreads blockSize warpSize)
            (OwnLane.executeAll (memcpyInstructions iterations))
            gpu.globalMemory.data block localId).touched
          address ↔
        ∃ i < iterations,
          address =
            1000000 +
              cellOf pattern numThreads (block * blockSize + localId) i := by
    rw [aloneAtEnd_touched fits (inThreads isThread)]
    simp [Stored, turnTouched]
  constructor
  · intro globalId isGlobalId i isIteration
    obtain ⟨block, isBlock, localId, isThread, rfl⟩ :=
      thread_of_element noWrap someThreads isGlobalId
    have inside := @cellOf_lt pattern _ _ _ fits isGlobalId _ isIteration
    have written :=
      (final _).1
        ⟨block, isBlock, localId, isThread,
          (stores isThread).mpr ⟨i, isIteration, rfl⟩⟩
    rw [target, if_pos (by omega), Nat.add_sub_cancel_left] at written
    exact (Option.some.inj written).symm
  · intro address nobody
    refine (final address).2 fun block _ localId isThread stored => ?_
    obtain ⟨i, isIteration, rfl⟩ := (stores isThread).mp stored
    exact nobody _ (inThreads isThread) i isIteration rfl

section Completion

variable {gpu : GPU Scheduler}
variable {config : SystemConfig}
variable {req : KernelResourceRequirements}
variable {fuel : Nat}

/-- The copy runs to its end. -/
theorem memcpy_returns
    (someThreads : 0 < blockSize)
    (positive : 0 < warpSize)
    (narrow : warpSize ≤ 32)
    (few : blockSize ≤ 2 ^ 31)
    (isInt : iterations < 2 ^ 31)
    (fits : iterations * memcpyStride pattern numThreads ≤ 1000000)
    (built :
      buildMemcpyGrid numThreads blockSize warpSize pattern = .ok grid)
    (scheduled :
      ∀ sm ∈ gpu.sms,
        ∃ scheduler, sm.scheduler = some scheduler ∧ scheduler.Usable)
    (inUse : gpu.CachesInUse)
    (large : 2000000 ≤ gpu.globalMemory.size)
    (room : ∀ block ∈ grid.blocks, SM.fitsEmpty block config req = true)
    (enough :
      grid.iterationBound (generateMemcpyKernel iterations isInt) config <
        fuel) :
    ∃ after,
      gpu.launchAndRun grid config req
          (generateMemcpyKernel iterations isInt) fuel =
        some (.ok after) := by
  have inMemory (address : Nat) (small : address < 2000000) :
      InMemory gpu.globalMemory.size address :=
    ⟨isGlobal_iff.mpr (small.trans (by decide)), small.trans_le large⟩
  exact
    GPU.agreeing_threads_complete someThreads positive narrow few built
      (fun _ _ _ _ isBuilt => writeRegisters_blockId isBuilt)
      (wellFormed isInt) (does isInt) (threadsKeep inMemory fits) scheduled
      inUse room enough

/--
The copy runs to its end and copies: with room for every block on an empty
multiprocessor and two million cells of global memory, it neither throws nor
goes on for ever, and leaves exactly the copies, whatever the pattern.
-/
theorem memcpy_completes
    (someThreads : 0 < blockSize)
    (positive : 0 < warpSize)
    (narrow : warpSize ≤ 32)
    (few : blockSize ≤ 2 ^ 31)
    (noWrap : numThreads + blockSize ≤ 2 ^ 64)
    (isInt : iterations < 2 ^ 31)
    (fits : iterations * memcpyStride pattern numThreads ≤ 1000000)
    (built :
      buildMemcpyGrid numThreads blockSize warpSize pattern = .ok grid)
    (nonempty : gpu.sms ≠ [])
    (scheduled :
      ∀ sm ∈ gpu.sms,
        ∃ scheduler, sm.scheduler = some scheduler ∧ scheduler.Usable)
    (inUse : gpu.CachesInUse)
    (large : 2000000 ≤ gpu.globalMemory.size)
    (room : ∀ block ∈ grid.blocks, SM.fitsEmpty block config req = true)
    (enough :
      grid.iterationBound (generateMemcpyKernel iterations isInt) config <
        fuel) :
    ∃ after,
      gpu.launchAndRun grid config req
            (generateMemcpyKernel iterations isInt) fuel =
          some (.ok after) ∧
        (∀ globalId < numThreads,
          ∀ i < iterations,
            after.globalMemory.data
                (1000000 + cellOf pattern numThreads globalId i) =
              gpu.globalMemory.data
                (cellOf pattern numThreads globalId i)) ∧
        ∀ address,
          (∀ globalId < numThreads,
            ∀ i < iterations,
              address ≠ 1000000 + cellOf pattern numThreads globalId i) →
          after.globalMemory.data address =
            gpu.globalMemory.data address := by
  obtain ⟨after, ran⟩ :=
    memcpy_returns someThreads positive narrow few isInt fits built scheduled
      inUse large room enough
  exact
    ⟨after, ran,
      memcpy_correct someThreads positive narrow noWrap isInt fits built
        nonempty ran⟩

end Completion

/-- Two threads, each of which is a warp. -/
def twoWarps : Grid :=
  (buildMemcpyGrid 2 2 1 "random").toOption.getD ⟨[]⟩

/-- A multiprocessor over a memory in which every cell holds its address. -/
def numbered : GPU Scheduler :=
  { GPU.single GPU.roomyConfig with
    globalMemory := ⟨2000000, fun address => BitVec.ofNat 32 address⟩ }

/-- Two cells of each thread arrive. -/
theorem memcpy_completes_two_warps :
    ∃ after,
      numbered.launchAndRun twoWarps GPU.roomyConfig ⟨1, 0⟩
            (generateMemcpyKernel 2 (by decide))
            (twoWarps.iterationBound (generateMemcpyKernel 2 (by decide))
                GPU.roomyConfig +
              1) =
          some (.ok after) ∧
        after.globalMemory.data (1000000 + cellOf "random" 2 1 1) =
          numbered.globalMemory.data (cellOf "random" 2 1 1) := by
  have built : buildMemcpyGrid 2 2 1 "random" = .ok twoWarps :=
    except_ok_getD (by decide +kernel)
  have room :
      twoWarps.blocks.all
          (fun block => SM.fitsEmpty block GPU.roomyConfig ⟨1, 0⟩) =
        true := by
    decide +kernel
  obtain ⟨after, ran, copies, _⟩ :=
    @memcpy_completes "random" 2 2 1 2 twoWarps numbered GPU.roomyConfig
      ⟨1, 0⟩ _ (by decide) (by decide) (by decide) (by decide) (by decide)
      (by decide) (by decide +kernel) built (List.cons_ne_nil _ _)
      (fun sm member => by
        rw [List.mem_singleton.mp member]
        exact ⟨_, rfl, trivial⟩)
      ⟨fun sm member => by
        rw [List.mem_singleton.mp member]
        exact (MemorySystem.minimal_inUse 1).l1Cache,
        (MemorySystem.minimal_inUse 1).l2Cache⟩
      (Nat.le_refl _)
      (fun block member => List.all_eq_true.mp room block member)
      (Nat.lt_succ_self _)
  exact ⟨after, ran, copies 1 (by decide) 1 (by decide)⟩

end Grid

end Memcpy

end SimSm
