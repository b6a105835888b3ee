import SimSm.BulkSynchronous
import SimSm.Grids

namespace SimSm

/-!
# Phases of the threads of a block

The kernels of the benchmarks keep the threads of a block at one pc from phase
to phase.  A phase is then correct when it is so thread by thread: what a
thread does alone meets the declared uses, and the memory at the next barrier
is collected from what the threads did.
-/

open Interleaving Outcome

/-- The position and the lane of a thread. -/
def threadAgent (warpSize localId : Nat) : Nat × Nat :=
  (localId / warpSize, localId % warpSize)

/-- Where a block stands whose threads are all at one pc. -/
def abreast
    (warpSize numThreads pc : Nat)
    (lane : Nat → LaneState)
    (position : Nat) :
    PathState where
  lanes :=
    (List.range (warpWidth warpSize numThreads position)).map fun number =>
      lane (position * warpSize + number)
  current := ⟨ActiveMask.full (warpWidth warpSize numThreads position), pc⟩
  pending := []

/-- The same with the threads' own memories. -/
def ownAbreast
    (warpSize numThreads pc : Nat)
    (own : Nat → OwnLane)
    (position : Nat) :
    OwnPaths where
  lanes :=
    (List.range (warpWidth warpSize numThreads position)).map fun number =>
      own (position * warpSize + number)
  current := ⟨ActiveMask.full (warpWidth warpSize numThreads position), pc⟩
  pending := []

/-- What the memory holds when the threads have kept to their uses. -/
structure Collected
    (numThreads : Nat)
    (use : Nat → Use Nat)
    (scope : Nat → Prop)
    (initial : Nat → Word)
    (own : Nat → Nat → Word)
    (memory : Nat → Word) :
    Prop where
  owned :
    ∀ localId < numThreads,
      ∀ address,
        scope address →
        use address = .owned localId →
        memory address = own localId address
  readOnly :
    ∀ address,
      scope address →
      use address = .readOnly →
      memory address = initial address
  addOnly :
    ∀ address,
      scope address →
      use address = .addOnly →
      memory address =
        initial address +
          ∑ localId ∈ Finset.range numThreads,
            (own localId address - initial address)

section Threads

variable {warpSize numThreads position number localId : Nat}

/-- A warp of the block has a thread. -/
theorem warpWidth_pos
    (positive : 0 < warpSize)
    (inside : position < warpCount warpSize numThreads) :
    0 < warpWidth warpSize numThreads position :=
  Benchmarks.threads_nonempty positive inside

/-- Past the warps of the block there is no thread. -/
theorem warpWidth_outside
    (positive : 0 < warpSize)
    (outside : warpCount warpSize numThreads ≤ position) :
    warpWidth warpSize numThreads position = 0 := by
  have below : numThreads + warpSize - 1 < (position + 1) * warpSize :=
    (Nat.div_lt_iff_lt_mul positive).mp (Nat.lt_succ_of_le outside)
  rw [Nat.succ_mul] at below
  unfold warpWidth
  omega

/-- A lane of a warp is a thread of the block. -/
theorem thread_of_lane
    (within : number < warpWidth warpSize numThreads position) :
    position * warpSize + number < numThreads ∧
      threadAgent warpSize (position * warpSize + number) =
        (position, number) := by
  unfold warpWidth at within
  have narrow : number < warpSize := by omega
  have positive : 0 < warpSize := by omega
  refine ⟨by omega, ?_⟩
  rw [threadAgent, Nat.mul_comm, Nat.mul_add_div positive,
    Nat.div_eq_of_lt narrow, Nat.mul_add_mod, Nat.mod_eq_of_lt narrow]
  rfl

/-- A thread of the block is a lane of a warp. -/
theorem lane_of_thread
    (positive : 0 < warpSize)
    (inside : localId < numThreads) :
    localId / warpSize < warpCount warpSize numThreads ∧
      localId % warpSize <
          warpWidth warpSize numThreads (localId / warpSize) ∧
        localId / warpSize * warpSize + localId % warpSize = localId := by
  have split := Nat.div_add_mod' localId warpSize
  have small := Nat.mod_lt localId positive
  refine ⟨?_, ?_, split⟩
  · rw [warpCount, Nat.lt_div_iff_mul_lt positive]
    omega
  · unfold warpWidth
    omega

theorem threadAgent_injective
    (warpSize : Nat) :
    Function.Injective (threadAgent warpSize) := by
  intro first second same
  obtain ⟨sameWarp, sameLane⟩ := Prod.mk.inj same
  rw [← Nat.div_add_mod first warpSize, sameWarp, sameLane,
    Nat.div_add_mod]

end Threads

/-- What is not shared is global. -/
theorem isGlobal_iff
    {address : Nat} :
    IsGlobal address ↔ address < MemorySystem.sharedMemBase := by
  unfold IsGlobal MemorySystem.isShared
  simp

/-! ## Cells of blocks -/

namespace Benchmarks

/-- The number of the block that a cell belongs to, from a base on. -/
theorem block_of_cell
    {base numCells block index : Nat}
    (inside : index < numCells) :
    (base + block * numCells * 4 + index * 4 - base) / (numCells * 4) =
      block := by
  have shape :
      base + block * numCells * 4 + index * 4 - base =
        index * 4 + block * (numCells * 4) := by
    rw [← Nat.mul_assoc]
    omega
  rw [shape, Nat.add_mul_div_right _ _ (by omega),
    Nat.div_eq_of_lt (by omega), Nat.zero_add]

/-- The number of a cell in its block, from a base on. -/
theorem index_of_cell
    {base numCells block index : Nat}
    (inside : index < numCells) :
    (base + block * numCells * 4 + index * 4 - base) % (numCells * 4) / 4 =
      index := by
  have shape :
      base + block * numCells * 4 + index * 4 - base =
        index * 4 + block * (numCells * 4) := by
    rw [← Nat.mul_assoc]
    omega
  rw [shape, Nat.add_mul_mod_self_right, Nat.mod_eq_of_lt (by omega),
    Nat.mul_div_cancel _ (by decide)]

/-- The cell of a block in shared memory, which blocks divide evenly. -/
def sharedCell (numCells block index : Nat) : Nat :=
  MemorySystem.sharedMemBase + block * numCells * 4 + index * 4

/--
The block that writes to a cell: its own cells of shared memory, and the
outputs, which follow the inputs.
-/
def cellWriter
    (numInputs numCells : Nat)
    (outputBlock : Nat → Nat)
    (address : Nat) :
    Option Nat :=
  if MemorySystem.sharedMemBase ≤ address then
    some ((address - MemorySystem.sharedMemBase) / (numCells * 4))
  else if numInputs * 4 ≤ address then
    some (outputBlock ((address - numInputs * 4) / 4))
  else
    none

/-- The use of an address that a thread may own. -/
def ownedBy : Option Nat → Use Nat
  | some localId => .owned localId
  | none => .readOnly

/-- Threads own cells of shared memory, and nothing else. -/
def useShared
    (numCells : Nat)
    (owner : Nat → Option Nat)
    (address : Nat) :
    Use Nat :=
  if MemorySystem.sharedMemBase ≤ address then
    ownedBy
      (owner
        ((address - MemorySystem.sharedMemBase) % (numCells * 4) / 4))
  else
    .readOnly

/-- Threads own outputs, and nothing else. -/
def useOutput
    (numInputs : Nat)
    (owner : Nat → Option Nat)
    (address : Nat) :
    Use Nat :=
  if numInputs * 4 ≤ address ∧ address < MemorySystem.sharedMemBase ∧
      (address - numInputs * 4) % 4 = 0 then
    ownedBy (owner ((address - numInputs * 4) / 4))
  else
    .readOnly

section Cells

variable {numInputs numCells block index address : Nat}
variable {outputBlock : Nat → Nat}
variable {owner : Nat → Option Nat}

theorem sharedCell_shared :
    MemorySystem.sharedMemBase ≤ sharedCell numCells block index := by
  unfold sharedCell
  omega

/-- Four bytes further is the next cell. -/
theorem sharedCell_add
    {numCells block index more : Nat} :
    sharedCell numCells block index + more * 4 =
      sharedCell numCells block (more + index) := by
  unfold sharedCell
  omega

/-- Cells of one block are told apart by their numbers. -/
theorem sharedCell_injective
    {other : Nat}
    (same : sharedCell numCells block index = sharedCell numCells block other) :
    index = other := by
  unfold sharedCell at same
  omega

theorem cellWriter_shared
    (inside : index < numCells) :
    cellWriter numInputs numCells outputBlock
        (sharedCell numCells block index) =
      some block := by
  rw [cellWriter, if_pos sharedCell_shared, sharedCell,
    block_of_cell inside]

theorem cellWriter_output
    (below : numInputs * 4 + index * 4 < MemorySystem.sharedMemBase) :
    cellWriter numInputs numCells outputBlock (numInputs * 4 + index * 4) =
      some (outputBlock index) := by
  have above : numInputs * 4 ≤ numInputs * 4 + index * 4 := by
    omega
  have number : (numInputs * 4 + index * 4 - numInputs * 4) / 4 = index := by
    omega
  rw [cellWriter, if_neg (Nat.not_le.mpr below), if_pos above, number]

theorem cellWriter_input
    (below : numInputs * 4 ≤ MemorySystem.sharedMemBase)
    (isInput : address < numInputs * 4) :
    cellWriter numInputs numCells outputBlock address = none := by
  rw [cellWriter, if_neg (by omega), if_neg (by omega)]

/-- What a block may use without owning it are the inputs. -/
theorem input_of_notMine
    (inScope :
      InScope (cellWriter numInputs numCells outputBlock) block address)
    (notMine :
      ¬ Mine (cellWriter numInputs numCells outputBlock) block address) :
    address < MemorySystem.sharedMemBase ∧ address < numInputs * 4 := by
  have nobody := inScope.resolve_right notMine
  unfold cellWriter at nobody
  split at nobody
  · cases nobody
  · split at nobody
    · cases nobody
    · omega

/-- The cells of global memory that a block owns are outputs. -/
theorem output_of_mine
    (isGlobal : IsGlobal address)
    (isMine :
      Mine (cellWriter numInputs numCells outputBlock) block address) :
    numInputs * 4 ≤ address ∧
      outputBlock ((address - numInputs * 4) / 4) = block := by
  have below := isGlobal_iff.mp isGlobal
  unfold Mine cellWriter at isMine
  rw [if_neg (Nat.not_le.mpr below)] at isMine
  split at isMine
  · rename_i above
    exact ⟨above, Option.some.inj isMine⟩
  · cases isMine

theorem useShared_cell
    (inside : index < numCells) :
    useShared numCells owner (sharedCell numCells block index) =
      ownedBy (owner index) := by
  rw [useShared, if_pos sharedCell_shared, sharedCell,
    index_of_cell inside]

theorem useShared_below
    (below : address < MemorySystem.sharedMemBase) :
    useShared numCells owner address = .readOnly :=
  if_neg (Nat.not_le.mpr below)

theorem useOutput_cell
    (below : numInputs * 4 + index * 4 < MemorySystem.sharedMemBase) :
    useOutput numInputs owner (numInputs * 4 + index * 4) =
      ownedBy (owner index) := by
  have number : (numInputs * 4 + index * 4 - numInputs * 4) / 4 = index := by
    omega
  have isOutput :
      numInputs * 4 ≤ numInputs * 4 + index * 4 ∧
        numInputs * 4 + index * 4 < MemorySystem.sharedMemBase ∧
          (numInputs * 4 + index * 4 - numInputs * 4) % 4 = 0 := by
    omega
  rw [useOutput, if_pos isOutput, number]

theorem useOutput_shared
    (isShared : MemorySystem.sharedMemBase ≤ address) :
    useOutput numInputs owner address = .readOnly :=
  if_neg fun isOutput => Nat.not_lt.mpr isShared isOutput.2.1

theorem useOutput_input
    (isInput : address < numInputs * 4) :
    useOutput numInputs owner address = .readOnly :=
  if_neg fun isOutput => Nat.not_lt.mpr isOutput.1 isInput

end Cells

end Benchmarks

/-! ## Phases thread by thread -/

section Phases

variable {kernel : Kernel}
variable {warpSize numThreads pc finish : Nat}
variable {scope mine : Nat → Prop}
variable {goal initial : Nat → Word}
variable {use : Nat → Use Nat}
variable {requires : OwnLane → Prop}
variable {transform : OwnLane → OwnLane}
variable {lane : Nat → LaneState}
variable {own : Nat → OwnLane}

/-- A lane that is found is a thread. -/
theorem ownAbreast_lane
    {position number : Nat}
    {found : OwnLane}
    (isLane :
      (ownAbreast warpSize numThreads pc own position).lanes[number]? =
        some found) :
    number < warpWidth warpSize numThreads position ∧
      found = own (position * warpSize + number) := by
  rw [ownAbreast, List.getElem?_map] at isLane
  obtain ⟨same, isSame, rfl⟩ := Option.map_eq_some_iff.mp isLane
  obtain ⟨inside, rfl⟩ := List.getElem?_eq_some_iff.mp isSame
  rw [List.length_range] at inside
  exact ⟨inside, by rw [List.getElem_range]⟩

/-- Every thread is a lane. -/
theorem lane_ownAbreast
    {position number : Nat}
    (within : number < warpWidth warpSize numThreads position) :
    (ownAbreast warpSize numThreads pc own position).lanes[number]? =
      some (own (position * warpSize + number)) := by
  simp [ownAbreast, within]

/-- Code that does something to every lane takes the block along. -/
theorem reaches_ownAbreast
    (positive : 0 < warpSize)
    (narrow : warpSize ≤ 32)
    (does : OwnPaths.Does kernel pc finish requires transform)
    (meets :
      ∀ localId < numThreads, requires ⟨lane localId, initial, []⟩)
    {position : Nat}
    (inside : position < warpCount warpSize numThreads) :
    OwnPaths.Reaches kernel
      (.begin (abreast warpSize numThreads pc lane position) initial)
      (ownAbreast warpSize numThreads finish
        (fun localId => transform ⟨lane localId, initial, []⟩)
        position) := by
  have some := warpWidth_pos positive inside
  have fits : warpWidth warpSize numThreads position ≤ 32 :=
    (Nat.min_le_left _ _).trans narrow
  have start :
      OwnPaths.begin (abreast warpSize numThreads pc lane position)
          initial =
        ownAbreast warpSize numThreads pc
          (fun localId => ⟨lane localId, initial, []⟩) position := by
    simp [OwnPaths.begin, abreast, ownAbreast, Function.comp_def]
  have masks :
      PathState.MasksLanes
        (ActiveMask.full (warpWidth warpSize numThreads position))
        ((ownAbreast warpSize numThreads pc
          (fun localId => ⟨lane localId, initial, []⟩) position).lanes.map
            OwnLane.lane) := by
    refine ⟨fun isEmpty => ?_, fun active => ?_⟩
    · have first :=
        (ActiveMask.getLsbD_full_lanes fits 0).mpr some
      rw [ActiveMask.eq_zero_iff.mp isEmpty 0] at first
      cases first
    · rw [ActiveMask.getLsbD_full_lanes fits] at active
      simpa [ownAbreast] using active
  have reaches :=
    does _ _ [] masks fun number found isLane _ => by
      obtain ⟨within, rfl⟩ := ownAbreast_lane isLane
      exact meets _ (thread_of_lane within).1
  have result :
      onLanes (ActiveMask.full (warpWidth warpSize numThreads position))
          transform
          (ownAbreast warpSize numThreads pc
            (fun localId => ⟨lane localId, initial, []⟩) position).lanes =
        (ownAbreast warpSize numThreads finish
          (fun localId => transform ⟨lane localId, initial, []⟩)
          position).lanes := by
    apply List.ext_getElem?
    intro number
    rw [getElem?_onLanes]
    by_cases within : number < warpWidth warpSize numThreads position
    · rw [lane_ownAbreast within, lane_ownAbreast within, Option.map_some,
        if_pos ((ActiveMask.getLsbD_full_lanes fits number).mpr within)]
    · simp [ownAbreast, within]
  rw [start]
  rw [result] at reaches
  exact reaches

/-- The lanes' own memories are those of the threads. -/
theorem ownMemory_thread
    (positive : 0 < warpSize)
    {localId : Nat}
    (inside : localId < numThreads) :
    ownMemory (warpCount warpSize numThreads)
        (ownAbreast warpSize numThreads pc own) initial
        (threadAgent warpSize localId) =
      (own localId).memory := by
  obtain ⟨isWarp, isLane, split⟩ := lane_of_thread positive inside
  have found := @lane_ownAbreast warpSize numThreads pc own _ _ isLane
  rw [split] at found
  exact ownMemory_eq isWarp found

/-- What is no thread has the memory that all started with. -/
theorem ownMemory_nobody
    {agent : Nat × Nat}
    (nobody :
      ∀ localId < numThreads, threadAgent warpSize localId ≠ agent) :
    ownMemory (warpCount warpSize numThreads)
        (ownAbreast warpSize numThreads pc own) initial agent =
      initial := by
  obtain ⟨position, number⟩ := agent
  unfold ownMemory
  split
  · dsimp only
    have noLane :
        (ownAbreast warpSize numThreads pc own position).lanes[number]? =
          none := by
      cases found :
          (ownAbreast warpSize numThreads pc own position).lanes[number]?
      · rfl
      · obtain ⟨within, _⟩ := ownAbreast_lane found
        obtain ⟨isThread, same⟩ := thread_of_lane within
        exact (nobody _ isThread same).elim
    rw [noLane]
    rfl
  · rfl

/-- Uses by threads are uses by the lanes that the threads are. -/
def laneUse (warpSize : Nat) (use : Nat → Use Nat) (address : Nat) :
    Use (Nat × Nat) :=
  match use address with
  | .owned localId => .owned (threadAgent warpSize localId)
  | .readOnly => .readOnly
  | .addOnly => .addOnly

/-- What a thread may do its lane may do. -/
theorem allowed_laneUse
    {localId : Nat}
    {access : Access Nat Word}
    (allowed : Allowed (Use.may use) scope localId access) :
    Allowed (Use.may (laneUse warpSize use)) scope
      (threadAgent warpSize localId) access := by
  refine ⟨?_, allowed.2⟩
  have may := allowed.1
  unfold Use.may laneUse
  unfold Use.may at may
  cases declared : use access.address with
  | owned owner =>
      rw [declared] at may
      exact congrArg (threadAgent warpSize) may
  | readOnly =>
      rw [declared] at may
      exact may
  | addOnly =>
      rw [declared] at may
      exact may

/-- The threads of a block among its lanes. -/
theorem sum_threads
    (positive : 0 < warpSize)
    (narrow : warpSize ≤ 32)
    {gain : Nat × Nat → Word}
    (nobody :
      ∀ agent,
        (∀ localId < numThreads, threadAgent warpSize localId ≠ agent) →
        gain agent = 0) :
    ∑ agent ∈ blockLanes (warpCount warpSize numThreads), gain agent =
      ∑ localId ∈ Finset.range numThreads,
        gain (threadAgent warpSize localId) := by
  rw [← Finset.sum_image fun first _ second _ same =>
    threadAgent_injective warpSize same]
  refine (Finset.sum_subset ?_ fun agent _ outside => ?_).symm
  · intro agent member
    obtain ⟨localId, isThread, rfl⟩ := Finset.mem_image.mp member
    obtain ⟨isWarp, _, _⟩ :=
      lane_of_thread positive (Finset.mem_range.mp isThread)
    refine
      Finset.mem_product.mpr
        ⟨Finset.mem_range.mpr isWarp, Finset.mem_range.mpr ?_⟩
    exact (Nat.mod_lt localId positive).trans_le narrow
  · refine nobody agent fun localId inside same => outside ?_
    exact
      Finset.mem_image.mpr ⟨localId, Finset.mem_range.mpr inside, same⟩

/-- What the lanes make is what is collected from the threads. -/
theorem Made.collected
    (positive : 0 < warpSize)
    (narrow : warpSize ≤ 32)
    {memory : Nat → Word}
    (made :
      Made (warpCount warpSize numThreads) scope initial
        (laneUse warpSize use) (ownAbreast warpSize numThreads pc own)
        memory) :
    Collected numThreads use scope initial
      (fun localId => (own localId).memory) memory where
  owned localId inside address inScope declared := by
    have isOwned :
        laneUse warpSize use address =
          .owned (threadAgent warpSize localId) := by
      rw [laneUse, declared]
    rw [Shares.of_owned made inScope isOwned,
      ownMemory_thread positive inside]
  readOnly address inScope declared :=
    Shares.of_readOnly made inScope (by rw [laneUse, declared])
  addOnly address inScope declared := by
    rw [Shares.of_addOnly made inScope (by rw [laneUse, declared])]
    congr 1
    rw [sum_threads positive narrow fun agent nobody => by
      rw [ownMemory_nobody nobody, sub_self]]
    refine Finset.sum_congr rfl fun localId inside => ?_
    rw [ownMemory_thread positive (Finset.mem_range.mp inside)]

/-- Threads that keep to their uses make a phase of the block. -/
theorem phase_of_threads
    (allowed :
      ∀ localId < numThreads,
        ∀ access ∈ (own localId).touched,
          Allowed (Use.may use) scope localId access)
    (readsOthers :
      ∀ address, scope address → ¬ mine address → use address = .readOnly) :
    Phase (warpCount warpSize numThreads) scope mine
      (laneUse warpSize use) (ownAbreast warpSize numThreads pc own) where
  allowed position _ number found isLane access accessed := by
    obtain ⟨within, rfl⟩ := ownAbreast_lane isLane
    obtain ⟨isThread, same⟩ := thread_of_lane within
    rw [← same]
    exact allowed_laneUse (allowed _ isThread access accessed)
  readsOthers address inScope notMine := by
    rw [laneUse, readsOthers address inScope notMine]

/-- A phase that ends at a barrier. -/
theorem Bulk.toBarrier
    (positive : 0 < warpSize)
    (narrow : warpSize ≤ 32)
    (does : OwnPaths.Does kernel pc finish requires transform)
    (goesFurther : finish + 1 < kernel.size)
    (fetched : kernel.fetch? finish = some Benchmarks.barrier)
    (meets :
      ∀ localId < numThreads, requires ⟨lane localId, initial, []⟩)
    (allowed :
      ∀ localId < numThreads,
        ∀ access ∈ (transform ⟨lane localId, initial, []⟩).touched,
          Allowed (Use.may use) scope localId access)
    (readsOthers :
      ∀ address, scope address → ¬ mine address → use address = .readOnly)
    (goesOn :
      ∀ memory,
        Collected numThreads use scope initial
          (fun localId => (transform ⟨lane localId, initial, []⟩).memory)
          memory →
        Bulk kernel (warpCount warpSize numThreads) scope mine goal
          (abreast warpSize numThreads (finish + 1) fun localId =>
            (transform ⟨lane localId, initial, []⟩).lane)
          memory) :
    Bulk kernel (warpCount warpSize numThreads) scope mine goal
      (abreast warpSize numThreads pc lane) initial := by
  refine
    .stops (phase_of_threads allowed readsOthers)
      (fun position inside =>
        reaches_ownAbreast positive narrow does meets inside)
      (fun position _ => ⟨goesFurther, _, fetched, rfl⟩)
      fun memory made => ?_
  have past :
      (fun position =>
          (ownAbreast warpSize numThreads finish
            (fun localId => transform ⟨lane localId, initial, []⟩)
            position).past) =
        abreast warpSize numThreads (finish + 1) fun localId =>
          (transform ⟨lane localId, initial, []⟩).lane := by
    funext position
    simp [OwnPaths.past, OwnPaths.paths, PathState.goto, ownAbreast,
      abreast, Function.comp_def]
  rw [past]
  exact goesOn memory (made.collected positive narrow)

/-- A phase that ends with the kernel. -/
theorem Bulk.toEnd
    (positive : 0 < warpSize)
    (narrow : warpSize ≤ 32)
    (does : OwnPaths.Does kernel pc kernel.size requires transform)
    (meets :
      ∀ localId < numThreads, requires ⟨lane localId, initial, []⟩)
    (allowed :
      ∀ localId < numThreads,
        ∀ access ∈ (transform ⟨lane localId, initial, []⟩).touched,
          Allowed (Use.may use) scope localId access)
    (readsOthers :
      ∀ address, scope address → ¬ mine address → use address = .readOnly)
    (result :
      ∀ memory,
        Collected numThreads use scope initial
          (fun localId => (transform ⟨lane localId, initial, []⟩).memory)
          memory →
        ∀ address,
          IsGlobal address → mine address → memory address = goal address) :
    Bulk kernel (warpCount warpSize numThreads) scope mine goal
      (abreast warpSize numThreads pc lane) initial := by
  refine
    .ends (phase_of_threads allowed readsOthers)
      (fun position inside =>
        reaches_ownAbreast positive narrow does meets inside)
      (fun position _ => ?_)
      fun memory made => result memory (made.collected positive narrow)
  simp [ownAbreast, OwnPaths.paths, PathState.ended]

end Phases

/-! ## Blocks that the builders build -/

namespace Benchmarks

/-- A thread of a block has an element. -/
theorem element_of_thread
    {numElements blockSize block localId : Nat}
    (inside : localId < threadsInBlock numElements blockSize block) :
    localId < blockSize ∧ block * blockSize + localId < numElements := by
  unfold threadsInBlock at inside
  omega

/-- The state in which a builder leaves the lane of a thread. -/
def builtLane
    (warpSize : Nat)
    (buildThread : Nat → Nat → Except SimError Thread)
    (localId : Nat) :
    LaneState :=
  ((buildThread (localId / warpSize)
    (localId % warpSize)).toOption.map Thread.lane).getD
      (Thread.new 0 0 0 0 0).lane

/-- Writing registers writes them to the lane in order. -/
theorem writeRegisters_lane
    {thread written : Thread}
    {values : List (Nat × Nat)}
    (valid : ∀ entry ∈ values, entry.1 < 32)
    (ran : writeRegisters thread values = .ok written) :
    written.lane =
      values.foldl
        (fun lane entry => lane.write entry.1 (BitVec.ofNat 32 entry.2))
        thread.lane := by
  unfold writeRegisters at ran
  induction values generalizing thread with
  | nil =>
      cases ran
      rfl
  | cons entry rest inductionHypothesis =>
      rw [List.foldlM_cons] at ran
      obtain ⟨middle, first, later⟩ := except_bind_ok.mp ran
      have isRegister : RegisterOperand (entry.1 : Int) := by
        have small := valid entry List.mem_cons_self
        exact ⟨Int.natCast_nonneg _, by omega⟩
      have lane :
          middle.lane =
            thread.lane.write entry.1 (BitVec.ofNat 32 entry.2) := by
        obtain ⟨registers, wrote, returned⟩ := except_bind_ok.mp first
        cases returned
        rw [RegisterFile.write_of_valid isRegister] at wrote
        cases wrote
        rfl
      rw [inductionHypothesis
          (fun other member => valid other (List.mem_cons_of_mem _ member))
          later,
        lane, List.foldl_cons]

/-- Each of the registers that are written holds its value. -/
theorem writeRegisters_read
    {thread written : Thread}
    {values : List (Nat × Nat)}
    {indices : List Nat}
    (keys : values.map Prod.fst = indices)
    (valid : ∀ index ∈ indices, index < 32)
    (distinct : indices.Nodup)
    (ran : writeRegisters thread values = .ok written)
    {index value : Nat}
    (member : (index, value) ∈ values) :
    written.lane.read index = BitVec.ofNat 32 value := by
  have isRegister {index : Nat} (isIndex : index ∈ indices) :
      RegisterOperand (index : Int) := by
    have small := valid index isIndex
    exact ⟨Int.natCast_nonneg _, by omega⟩
  subst keys
  rw [writeRegisters_lane
    (fun entry isEntry =>
      valid entry.1 (List.mem_map.mpr ⟨entry, isEntry, rfl⟩)) ran]
  generalize thread.lane = lane
  clear ran valid
  induction values using List.reverseRecOn generalizing index value with
  | nil => cases member
  | append_singleton earlier last inductionHypothesis =>
      rw [List.foldl_append, List.foldl_cons, List.foldl_nil]
      rw [List.map_append, List.nodup_append] at distinct
      rw [LaneState.read_write (isRegister (by simp))
        (isRegister (List.mem_map.mpr ⟨_, member, rfl⟩))]
      rcases List.mem_append.mp member with isEarlier | isLast
      · have other : ((index : Nat) : Int) ≠ (last.1 : Int) := by
          intro same
          exact
            distinct.2.2 index
              (List.mem_map.mpr ⟨_, isEarlier, rfl⟩) last.1 (by simp)
              (Int.natCast_inj.mp same)
        rw [if_neg other]
        refine inductionHypothesis isEarlier distinct.1 fun isIndex => ?_
        rw [List.map_append] at isRegister
        exact isRegister (List.mem_append_left _ isIndex)
      · rw [List.mem_singleton] at isLast
        subst isLast
        rw [if_pos rfl]

section Built

variable {warpSize numThreads : Nat}
variable {buildThread : Nat → Nat → Except SimError Thread}
variable {warps : List Warp}

/-- Every thread of a block was built. -/
theorem buildWarps_thread
    (positive : 0 < warpSize)
    (ran : buildWarps numThreads warpSize buildThread = .ok warps)
    {localId : Nat}
    (inside : localId < numThreads) :
    ∃ thread,
      buildThread (localId / warpSize) (localId % warpSize) =
        .ok thread := by
  obtain ⟨isWarp, isLane, _⟩ := lane_of_thread positive inside
  rw [← buildWarps_length ran] at isWarp
  obtain ⟨threads, _, built⟩ :=
    buildWarps_at ran (List.getElem?_eq_getElem isWarp)
  have isNumber :
      (List.range (warpWidth warpSize numThreads (localId / warpSize)))[
          localId % warpSize]? =
        some (localId % warpSize) := by
    rw [List.getElem?_range isLane]
  obtain ⟨thread, _, isThread⟩ := Pointwise.partner built isNumber
  exact ⟨thread, isThread⟩

/-- The threads of a block start abreast at pc zero, as they were built. -/
theorem buildWarps_start
    (positive : 0 < warpSize)
    (narrow : warpSize ≤ 32)
    (ran : buildWarps numThreads warpSize buildThread = .ok warps)
    (blockId : Nat)
    {prioritise : Warp → Warp}
    (keeps :
      ∀ warp, ∃ priority, prioritise warp = { warp with priority }) :
    ThreadBlock.start ⟨blockId, warps.map prioritise⟩ =
      abreast warpSize numThreads 0 (builtLane warpSize buildThread) := by
  funext position
  rw [ThreadBlock.start, List.getElem?_map]
  cases found : warps[position]? with
  | none =>
      have outside := List.getElem?_eq_none_iff.mp found
      rw [buildWarps_length ran] at outside
      rw [abreast, warpWidth_outside positive outside]
      rfl
  | some warp =>
      obtain ⟨threads, rfl, built⟩ := buildWarps_at ran found
      have length :
          warpWidth warpSize numThreads position = threads.length := by
        rw [← built.length_eq, List.length_range]
      have fits : threads.length ≤ 32 := by
        rw [← length]
        exact (Nat.min_le_left _ _).trans narrow
      have lanes :
          threads.map Thread.lane =
            (List.range (warpWidth warpSize numThreads position)).map
              fun number =>
                builtLane warpSize buildThread
                  (position * warpSize + number) := by
        apply List.ext_getElem?
        intro number
        rw [List.getElem?_map, List.getElem?_map]
        by_cases within : number < warpWidth warpSize numThreads position
        · have isNumber := List.getElem?_range within
          obtain ⟨thread, isThread, isBuilt⟩ :=
            Pointwise.partner built isNumber
          obtain ⟨isWarp, isLane⟩ :=
            Prod.mk.inj (thread_of_lane within).2
          rw [isThread, isNumber, Option.map_some, Option.map_some,
            builtLane, isWarp, isLane, isBuilt]
          rfl
        · have noThread : threads[number]? = none := by
            rw [List.getElem?_eq_none_iff, ← length]
            exact Nat.not_lt.mp within
          rw [noThread]
          simp [within]
      obtain ⟨priority, same⟩ := keeps (Warp.ofThreads position threads)
      rw [Option.map_some, Option.map_some, Option.getD_some, same,
        Warp.ofThreads_eq position fits, abreast, ← lanes, length]
      rfl

end Built

/--
A block that a builder builds: so many threads for its id, in warps of one
size, which get their priorities afterwards.
-/
structure IsBuilt
    (warpSize : Nat)
    (numThreads : Nat → Nat)
    (buildThread : Nat → Nat → Nat → Except SimError Thread)
    (block : ThreadBlock) :
    Prop where
  some : 0 < numThreads block.blockId
  warps :
    ∃ warps prioritise,
      buildWarps (numThreads block.blockId) warpSize
            (buildThread block.blockId) =
          .ok warps ∧
        block.warps = warps.map prioritise ∧
          ∀ warp, ∃ priority, prioritise warp = { warp with priority }

section Grids

variable {warpSize : Nat}
variable {numThreads : Nat → Nat}
variable {buildThread : Nat → Nat → Nat → Except SimError Thread}
variable {block : ThreadBlock}

namespace IsBuilt

/-- The threads of the block start abreast. -/
theorem start
    (built : IsBuilt warpSize numThreads buildThread block)
    (positive : 0 < warpSize)
    (narrow : warpSize ≤ 32) :
    block.warps.length = warpCount warpSize (numThreads block.blockId) ∧
      block.start =
        abreast warpSize (numThreads block.blockId) 0
          (builtLane warpSize (buildThread block.blockId)) := by
  obtain ⟨warps, prioritise, ran, shape, keeps⟩ := built.warps
  constructor
  · rw [shape, List.length_map, buildWarps_length ran]
  · have starts :=
      buildWarps_start positive narrow ran block.blockId keeps
    rw [← shape] at starts
    exact starts

/-- A warp of the block at a position. -/
theorem warp
    (built : IsBuilt warpSize numThreads buildThread block)
    (positive : 0 < warpSize)
    (ofBlock :
      ∀ warpId lane thread,
        buildThread block.blockId warpId lane = .ok thread →
        thread.blockId = block.blockId)
    {warp : Warp}
    (member : warp ∈ block.warps) :
    warp.state = .ready ∧ warp.warpPc = 0 ∧ warp.threads ≠ [] ∧
      ∀ thread ∈ warp.threads, thread.blockId = block.blockId := by
  obtain ⟨warps, prioritise, ran, shape, keeps⟩ := built.warps
  rw [shape] at member
  obtain ⟨original, isOriginal, rfl⟩ := List.mem_map.mp member
  obtain ⟨position, found⟩ := List.mem_iff_getElem?.mp isOriginal
  obtain ⟨threads, nonempty, carry, rfl⟩ :=
    buildWarps_ok positive ofBlock ran position original found
  obtain ⟨priority, same⟩ := keeps (Warp.ofThreads position threads)
  obtain ⟨mask, ofThreads⟩ := Warp.ofThreads_shape position threads
  rw [same, ofThreads]
  exact ⟨rfl, rfl, nonempty, carry⟩

end IsBuilt

/-- The grid of elements has one built block for each id. -/
theorem buildElementGrid_blocks
    {numElements blockSize : Nat}
    {grid : Grid}
    (positive : 0 < blockSize)
    (ran :
      buildElementGrid numElements blockSize warpSize buildThread =
        .ok grid) :
    grid.blocks.map ThreadBlock.blockId =
        List.range (numBlocks numElements blockSize) ∧
      ∀ block ∈ grid.blocks,
        IsBuilt warpSize (threadsInBlock numElements blockSize) buildThread
          block := by
  obtain ⟨blocks, each, returned⟩ := except_bind_ok.mp ran
  cases returned
  have built := except_mapM_ok.mp each
  have oneByOne
      {id : Nat}
      {block : ThreadBlock}
      (isBuilt :
        (do
          let warps ←
            buildWarps (threadsInBlock numElements blockSize id) warpSize
              (buildThread id)
          pure
            { blockId := id
              warps :=
                warps.map fun warp =>
                  { warp with priority := toInt32 warp.warpId } :
              ThreadBlock } :
          Except SimError ThreadBlock) =
        .ok block) :
      block.blockId = id ∧
        ∃ warps prioritise,
          buildWarps (threadsInBlock numElements blockSize id) warpSize
                (buildThread id) =
              .ok warps ∧
            block.warps = warps.map prioritise ∧
              ∀ warp, ∃ priority, prioritise warp = { warp with priority } := by
    obtain ⟨warps, warpsBuilt, returned⟩ := except_bind_ok.mp isBuilt
    cases returned
    exact ⟨rfl, warps, _, warpsBuilt, rfl, fun warp => ⟨_, rfl⟩⟩
  constructor
  · have ids :=
      Pointwise.map_eq_range
        (built.length_eq.symm.trans List.length_range) fun found =>
          (oneByOne (Pointwise.origin_range built found).2).1
    rwa [List.map_id'] at ids
  · intro block member
    obtain ⟨index, found⟩ := List.mem_iff_getElem?.mp member
    obtain ⟨inside, isBuilt⟩ := Pointwise.origin_range built found
    obtain ⟨rfl, warps⟩ := oneByOne isBuilt
    refine ⟨?_, warps⟩
    exact
      threads_nonempty positive (inside.trans_le (numBlocks_le_count _ _))

end Grids

end Benchmarks

/-! ## Runs from a fresh GPU -/

namespace GPU

variable {σ : Type}

/-- A GPU with data placed in its global memory before the launch. -/
def place (gpu : GPU σ) (data : Nat → Word) : GPU σ :=
  { gpu with globalMemory := { gpu.globalMemory with data := data } }

/-- What a warp sees of data in global memory and of fresh shared memory. -/
def placedView (data : Nat → Word) (address : Nat) : Word :=
  if MemorySystem.isShared address then 0 else data address

/-- Words from address zero on, one after the other, and zeros after them. -/
def placedWords
    (count : Nat)
    (word : Nat → Word)
    (address : Nat) :
    Word :=
  if address < count * 4 ∧ address % 4 = 0 then word (address / 4) else 0

section Words

variable {count index address : Nat}
variable {word : Nat → Word}

/-- A word is where it was placed. -/
theorem placedWords_word
    (inside : index < count) :
    placedWords count word (index * 4) = word index := by
  have isWord : index * 4 < count * 4 ∧ index * 4 % 4 = 0 := by
    omega
  rw [placedWords, if_pos isWord, Nat.mul_div_cancel _ (by decide)]

/-- Warps see it there. -/
theorem placedView_word
    (below : count * 4 ≤ MemorySystem.sharedMemBase)
    (inside : index < count) :
    placedView (placedWords count word) (index * 4) = word index := by
  have isGlobal : IsGlobal (index * 4) := isGlobal_iff.mpr (by omega)
  have notShared : ¬ MemorySystem.isShared (index * 4) = true := by
    rw [isGlobal]
    exact Bool.false_ne_true
  rw [placedView, if_neg notShared, placedWords_word inside]

/-- Past the words there are zeros only. -/
theorem placedView_rest
    (above : count * 4 ≤ address) :
    placedView (placedWords count word) address = 0 := by
  unfold placedView placedWords
  split
  · rfl
  · exact if_neg fun isWord => Nat.not_lt.mpr above isWord.1

end Words

/-- The shared memories of a fresh GPU are zeroed. -/
theorem new_shared
    {config : SystemConfig}
    {createScheduler : SystemConfig → Except SimError σ}
    {rng : Nat → Nat → Nat → Nat}
    {gpu : GPU σ}
    (built : GPU.new config createScheduler rng = .ok gpu) :
    gpu.sms.length = config.numSms ∧
      ∀ sm ∈ gpu.sms, sm.sharedMemory.data = fun _ => 0 := by
  obtain ⟨l2Cache, _, rest⟩ := except_bind_ok.mp built
  obtain ⟨sms, smsBuilt, returned⟩ := except_bind_ok.mp rest
  cases returned
  have each := except_mapM_ok.mp smsBuilt
  constructor
  · rw [← each.length_eq, List.length_range]
  · intro sm member
    obtain ⟨smId, found⟩ := List.mem_iff_getElem?.mp member
    obtain ⟨_, _, isBuilt⟩ := Pointwise.origin each found
    obtain ⟨empty, emptyBuilt, later⟩ := except_bind_ok.mp isBuilt
    obtain ⟨scheduler, _, returned⟩ := except_bind_ok.mp later
    cases returned
    obtain ⟨cache, _, rfl⟩ := except_map_ok.mp emptyBuilt
    rfl

/-- Every multiprocessor of a fresh GPU sees the same. -/
theorem place_view
    {config : SystemConfig}
    {createScheduler : SystemConfig → Except SimError σ}
    {rng : Nat → Nat → Nat → Nat}
    {gpu : GPU σ}
    (built : GPU.new config createScheduler rng = .ok gpu)
    (data : Nat → Word)
    {smId : Nat}
    (inside : smId < (gpu.place data).sms.length) :
    (gpu.place data).gridState.view smId = placedView data := by
  have found : gpu.sms[smId]? = some gpu.sms[smId] :=
    List.getElem?_eq_getElem inside
  have zeroed :=
    (new_shared built).2 gpu.sms[smId] (List.getElem_mem inside)
  funext address
  change
    dataView ((gpu.sms[smId]?.map SM.sharedMemory).getD _) _ address = _
  rw [found, dataView, placedView]
  split
  · exact congrFun zeroed _
  · rfl

/--
On a fresh GPU, the built blocks of a grid leave the goal in the cells that
they write, when they are correct phase by phase.
-/
theorem built_correct
    [WarpScheduler σ]
    [LawfulWarpScheduler σ]
    {grid : Grid}
    {kernel : Kernel}
    {warpSize : Nat}
    {numThreads : Nat → Nat}
    {buildThread : Nat → Nat → Nat → Except SimError Thread}
    {writer : Nat → Option Nat}
    {data goal : Nat → Word}
    (positive : 0 < warpSize)
    (narrow : warpSize ≤ 32)
    (hasCode : 0 < kernel.size)
    (distinct : (grid.blocks.map ThreadBlock.blockId).Nodup)
    (built :
      ∀ block ∈ grid.blocks,
        Benchmarks.IsBuilt warpSize numThreads buildThread block)
    (ofBlock :
      ∀ block warpId lane thread,
        buildThread block warpId lane = .ok thread →
        thread.blockId = block)
    (correct :
      ∀ block ∈ grid.blocks,
        ∀ memory : Nat → Word,
          (∀ address,
            InScope writer block.blockId address →
            memory address = placedView data address) →
          Bulk kernel (warpCount warpSize (numThreads block.blockId))
            (InScope writer block.blockId) (Mine writer block.blockId) goal
            (abreast warpSize (numThreads block.blockId) 0
              (Benchmarks.builtLane warpSize (buildThread block.blockId)))
            memory)
    {config launchConfig : SystemConfig}
    {createScheduler : SystemConfig → Except SimError σ}
    {rng : Nat → Nat → Nat → Nat}
    {gpu after : GPU σ}
    (fresh : GPU.new config createScheduler rng = .ok gpu)
    (hasSms : 0 < config.numSms)
    {req : KernelResourceRequirements}
    {fuel : Nat}
    (ran :
      (gpu.place data).launchAndRun grid launchConfig req kernel fuel =
        some (.ok after))
    {address : Nat}
    (isGlobal : IsGlobal address) :
    (writer address = none →
        after.globalMemory.data address = data address) ∧
      ∀ block ∈ grid.blocks,
        Mine writer block.blockId address →
        after.globalMemory.data address = goal address := by
  have wellFormed : grid.WellFormed := by
    refine ⟨distinct, fun block member => ⟨?_, fun warp ofIt => ?_⟩⟩
    · obtain ⟨length, _⟩ := (built block member).start positive narrow
      rw [← List.length_pos_iff, length, warpCount]
      have some := (built block member).some
      exact Nat.div_pos (by omega) positive
    · exact
        ((built block member).warp positive (ofBlock _) ofIt).2.2
  have waiting : grid.Waiting kernel := by
    intro block member warp ofIt
    obtain ⟨ready, atStart, _⟩ :=
      (built block member).warp positive (ofBlock _) ofIt
    exact ⟨ready, by rwa [atStart]⟩
  have nonempty : (gpu.place data).sms ≠ [] := by
    rw [← List.length_pos_iff]
    change 0 < gpu.sms.length
    rwa [(new_shared fresh).1]
  have phases :
      ∀ block ∈ grid.blocks,
        ∀ memory : Nat → Word,
          (∀ address,
            InScope writer block.blockId address →
            memory address = placedView data address) →
          Bulk kernel block.warps.length (InScope writer block.blockId)
            (Mine writer block.blockId) goal block.start memory := by
    intro block member memory agrees
    obtain ⟨length, start⟩ := (built block member).start positive narrow
    rw [length, start]
    exact correct block member memory agrees
  have final :=
    bulk_correct wellFormed waiting phases nonempty
      (fun smId inside => place_view fresh data inside) ran isGlobal
  have placed : placedView data address = data address := by
    have notShared : ¬ MemorySystem.isShared address = true := by
      rw [isGlobal]
      exact Bool.false_ne_true
    rw [placedView, if_neg notShared]
  rw [placed] at final
  exact final

/-- The same for the blocks that elements are divided into. -/
theorem elementGrid_correct
    [WarpScheduler σ]
    [LawfulWarpScheduler σ]
    {grid : Grid}
    {kernel : Kernel}
    {numElements blockSize warpSize : Nat}
    {buildThread : Nat → Nat → Nat → Except SimError Thread}
    {writer : Nat → Option Nat}
    {data goal : Nat → Word}
    (someThreads : 0 < blockSize)
    (positive : 0 < warpSize)
    (narrow : warpSize ≤ 32)
    (hasCode : 0 < kernel.size)
    (built :
      Benchmarks.buildElementGrid numElements blockSize warpSize
          buildThread =
        .ok grid)
    (ofBlock :
      ∀ block warpId lane thread,
        buildThread block warpId lane = .ok thread →
        thread.blockId = block)
    (correct :
      ∀ block < Benchmarks.numBlocks numElements blockSize,
        ∀ warps,
          Benchmarks.buildWarps
              (Benchmarks.threadsInBlock numElements blockSize block)
              warpSize (buildThread block) =
            .ok warps →
          ∀ memory : Nat → Word,
            (∀ address,
              InScope writer block address →
              memory address = placedView data address) →
            Bulk kernel
              (warpCount warpSize
                (Benchmarks.threadsInBlock numElements blockSize block))
              (InScope writer block) (Mine writer block) goal
              (abreast warpSize
                (Benchmarks.threadsInBlock numElements blockSize block) 0
                (Benchmarks.builtLane warpSize (buildThread block)))
              memory)
    {config launchConfig : SystemConfig}
    {createScheduler : SystemConfig → Except SimError σ}
    {rng : Nat → Nat → Nat → Nat}
    {gpu after : GPU σ}
    (fresh : GPU.new config createScheduler rng = .ok gpu)
    (hasSms : 0 < config.numSms)
    {req : KernelResourceRequirements}
    {fuel : Nat}
    (ran :
      (gpu.place data).launchAndRun grid launchConfig req kernel fuel =
        some (.ok after))
    {address block : Nat}
    (isGlobal : IsGlobal address)
    (isBlock : block < Benchmarks.numBlocks numElements blockSize)
    (isMine : Mine writer block address) :
    after.globalMemory.data address = goal address := by
  obtain ⟨ids, blocks⟩ :=
    Benchmarks.buildElementGrid_blocks someThreads built
  have inGrid
      {other : ThreadBlock}
      (member : other ∈ grid.blocks) :
      other.blockId < Benchmarks.numBlocks numElements blockSize := by
    have isId :
        other.blockId ∈ grid.blocks.map ThreadBlock.blockId :=
      List.mem_map_of_mem member
    rw [ids] at isId
    exact List.mem_range.mp isId
  obtain ⟨threadBlock, member, rfl⟩ :
      ∃ threadBlock ∈ grid.blocks, threadBlock.blockId = block := by
    rw [← List.mem_map, ids]
    exact List.mem_range.mpr isBlock
  refine
    (built_correct positive narrow hasCode
      (by rw [ids]; exact List.nodup_range) blocks ofBlock ?_ fresh hasSms
      ran isGlobal).2
      threadBlock member isMine
  intro other otherMember memory agrees
  obtain ⟨warps, _, warpsBuilt, _⟩ := (blocks other otherMember).warps
  exact correct _ (inGrid otherMember) warps warpsBuilt memory agrees

end GPU

end SimSm
