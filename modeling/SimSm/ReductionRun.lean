import SimSm.Reduction

namespace SimSm

/-!
# Runs of the reduction benchmark

After the elements are loaded, each round leaves in the cells of a block what a
round of strides makes of their values.  The first cell is written out, so that
a run leaves the sum of those elements that strides add up to.
-/

open Interleaving Outcome Benchmarks

namespace Reduction

/-! ## Rounds of a block -/

/-- The cells of a block hold values, none for the threads that it lacks. -/
structure Holding
    (numElements blockSize block : Nat)
    (value memory : Nat → Word) :
    Prop where
  lacks :
    ∀ index,
      threadsInBlock numElements blockSize block ≤ index →
      value index = 0
  cells :
    ∀ index < blockSize,
      memory (sharedCell blockSize block index) = value index
  outputs :
    ∀ address,
      numElements * 4 ≤ address →
      address < MemorySystem.sharedMemBase →
      InScope (writer numElements blockSize) block address →
      memory address = 0

/-- From a pc on, the block leaves its sum in its output cell. -/
abbrev Completes
    (kernel : Kernel)
    (numElements blockSize warpSize block : Nat)
    (input : Nat → Word)
    (pc : Nat)
    (lane : Nat → LaneState)
    (memory : Nat → Word) :
    Prop :=
  Bulk kernel
    (warpCount warpSize (threadsInBlock numElements blockSize block))
    (InScope (writer numElements blockSize) block)
    (Mine (writer numElements blockSize) block)
    (goal numElements blockSize input)
    (abreast warpSize (threadsInBlock numElements blockSize block) pc lane)
    memory

/-- The first threads own the cells with their numbers. -/
def ownCell (numOwners index : Nat) : Option Nat :=
  if index < numOwners then some index else none

section Rounds

variable {numElements blockSize warpSize block : Nat}
variable {input value : Nat → Word}
variable {kernel : Kernel}
variable {pc start : Nat}
variable {prologue : OwnLane → OwnLane}
variable {lane : Nat → LaneState}
variable {memory : Nat → Word}

/-- The last phase: the first thread writes the sum out. -/
theorem writesOut
    (setting : Setting numElements blockSize warpSize block)
    (someThreads : 0 < blockSize)
    (holds : kernel.Holds start (guarded 3 finalBody))
    (size : kernel.size = start + (guarded 3 finalBody).length)
    (does : OwnPaths.Does kernel pc start (fun _ => True) prologue)
    (keeps :
      ∀ own,
        (prologue own).memory = own.memory ∧
          (prologue own).touched = own.touched)
    (ready :
      ∀ localId < threadsInBlock numElements blockSize block,
        Ready numElements blockSize block localId
          (prologue ⟨lane localId, memory, []⟩).lane)
    (holding : Holding numElements blockSize block value memory)
    (result :
      value 0 =
        StridedSum.rounds (strides blockSize)
          (segment numElements blockSize input block) 0) :
    Completes kernel numElements blockSize warpSize block input pc lane
      memory := by
  have writes :
      OwnPaths.Does kernel pc kernel.size (fun _ => True) fun own =>
        (prologue own).executeGuarded 3 finalBody := by
    have final :
        OwnPaths.Does kernel start
          (start + (guarded 3 finalBody).length) (fun _ => True)
          (OwnLane.executeGuarded 3 finalBody) :=
      OwnPaths.Does.guarded holds (List.cons_ne_nil _ _) (by decide)
    rw [size]
    exact does.trans final fun _ _ => trivial
  have firstThread :
      0 < threadsInBlock numElements blockSize block := by
    have someElements := setting.someElements
    unfold threadsInBlock
    omega
  have below :
      numElements * 4 + block * 4 < MemorySystem.sharedMemBase := by
    have fits := setting.fits
    omega
  have keepsHere (localId : Nat) :=
    keeps ⟨lane localId, memory, []⟩
  have first :=
    final_first setting someThreads (ready 0 firstThread)
  rw [(keepsHere 0).1, (keepsHere 0).2] at first
  refine
    @Bulk.toEnd kernel warpSize _ _ _ _ _ _
      (useOutput numElements fun _ => some 0) _ _ lane setting.someLanes
      setting.narrow writes (fun _ _ => trivial) ?_ ?_ ?_
  · intro localId inside access accessed
    by_cases isFirst : localId = 0
    · subst isFirst
      rw [first.2] at accessed
      rcases List.mem_append.mp accessed with loaded | stored
      · rcases List.mem_append.mp loaded with none | loaded
        · cases none
        · rw [List.mem_singleton] at loaded
          subst loaded
          exact
            Use.allowed_load (useOutput_shared sharedCell_shared)
              (Or.inr (cellWriter_shared someThreads))
      · rw [List.mem_singleton] at stored
        subst stored
        exact
          Use.allowed_owned (useOutput_cell below)
            (Or.inr (cellWriter_output below))
    · rw [(final_others (ready localId inside) isFirst).2,
        (keepsHere localId).2] at accessed
      cases accessed
  · intro address inScope notMine
    exact useOutput_input (input_of_notMine inScope notMine).2
  · intro final collected address isGlobal isMine
    obtain ⟨above, ofBlock⟩ := output_of_mine isGlobal isMine
    unfold goal
    rw [ofBlock]
    split
    · have isCell : address = numElements * 4 + block * 4 := by
        omega
      subst isCell
      rw [collected.owned 0 firstThread _ (Or.inr isMine)
          (useOutput_cell below),
        first.1, ← result, ← holding.cells 0 someThreads]
      exact Function.update_self ..
    · rename_i notAligned
      rw [collected.readOnly address (Or.inr isMine)
          (if_neg fun isOutput => notAligned isOutput.2.2)]
      exact
        holding.outputs address above (isGlobal_iff.mp isGlobal)
          (Or.inr isMine)

/-- The cells of a block are in its scope. -/
theorem inScope_shared
    {index : Nat}
    (isCell : index < blockSize) :
    InScope (writer numElements blockSize) block
      (sharedCell blockSize block index) :=
  Or.inr (cellWriter_shared isCell)

/-- The cells of the first threads are owned, and the others are read. -/
theorem useShared_ownCell
    {numOwners index : Nat}
    (inside : index < blockSize) :
    useShared blockSize (ownCell numOwners)
        (sharedCell blockSize block index) =
      if index < numOwners then .owned index else .readOnly := by
  rw [useShared_cell inside, ownCell]
  split
  · rfl
  · rfl

/-- A round adds to the cells below its stride. -/
theorem Holding.round
    (holding : Holding numElements blockSize block value memory)
    {stride : Nat}
    (reaches : 2 * stride ≤ blockSize)
    {later : Nat → Word}
    {own : Nat → Nat → Word}
    (collected :
      Collected (threadsInBlock numElements blockSize block)
        (useShared blockSize
          (ownCell
            (min stride (threadsInBlock numElements blockSize block))))
        (InScope (writer numElements blockSize) block) memory own later)
    (adds :
      ∀ localId < threadsInBlock numElements blockSize block,
        localId < stride →
        own localId (sharedCell blockSize block localId) =
          memory (sharedCell blockSize block localId) +
            memory (sharedCell blockSize block (localId + stride))) :
    Holding numElements blockSize block
      (StridedSum.round stride value) later where
  lacks index outside := by
    have own := holding.lacks index outside
    have other := holding.lacks (index + stride) (by omega)
    unfold StridedSum.round
    split
    · rw [own, other, add_zero]
    · exact own
  cells index inside := by
    have inScope :
        InScope (writer numElements blockSize) block
          (sharedCell blockSize block index) :=
      inScope_shared inside
    have declared :=
      @useShared_ownCell blockSize block
        (min stride (threadsInBlock numElements blockSize block)) index
        inside
    unfold StridedSum.round
    by_cases owned :
        index <
          min stride (threadsInBlock numElements blockSize block)
    · rw [if_pos owned] at declared
      obtain ⟨active, isThread⟩ := Nat.lt_min.mp owned
      rw [if_pos active,
        collected.owned index isThread _ inScope declared,
        adds index isThread active, holding.cells index inside,
        holding.cells (index + stride) (by omega)]
    · rw [if_neg owned] at declared
      rw [collected.readOnly _ inScope declared,
        holding.cells index inside]
      split
      · -- Below the stride, but past the threads: there is nothing to add.
        rw [holding.lacks (index + stride) (by omega), add_zero]
      · rfl
  outputs address above below inScope := by
    rw [collected.readOnly address inScope (useShared_below below)]
    exact holding.outputs address above below inScope

/-- In a round an active thread updates its own cell and reads another. -/
theorem round_allowed
    {own : OwnLane}
    {localId stride step : Nat}
    (setting : Setting numElements blockSize warpSize block)
    (inside : localId < threadsInBlock numElements blockSize block)
    (ready : Ready numElements blockSize block localId own.lane)
    (untouched : own.touched = [])
    (isRound : (stride, step) ∈ (strides blockSize).zipIdx) :
    ∀ access ∈
      (own.executeGuarded (20 + step : Nat) (roundBody stride)).touched,
      Allowed
        (Use.may
          (useShared blockSize
            (ownCell
              (min stride (threadsInBlock numElements blockSize block)))))
        (InScope (writer numElements blockSize) block) localId access := by
  intro access accessed
  have isThread := (element_of_thread inside).1
  have reaches := (mem_strides (round_lt setting.small isRound).1).2
  dsimp only at reaches
  by_cases active : localId < stride
  · have owned :
        useShared blockSize
            (ownCell
              (min stride (threadsInBlock numElements blockSize block)))
            (sharedCell blockSize block localId) =
          .owned localId := by
      rw [useShared_ownCell isThread,
        if_pos (Nat.lt_min.mpr ⟨active, inside⟩)]
    have onlyRead :
        useShared blockSize
            (ownCell
              (min stride (threadsInBlock numElements blockSize block)))
            (sharedCell blockSize block (localId + stride)) =
          .readOnly := by
      rw [useShared_ownCell (by omega), if_neg (by omega)]
    rw [(round_active setting ready isRound active).2, untouched]
      at accessed
    rcases List.mem_append.mp accessed with loads | stored
    · rcases List.mem_append.mp loads with loads | loadedOther
      · rcases List.mem_append.mp loads with none | loaded
        · cases none
        · rw [List.mem_singleton] at loaded
          subst loaded
          exact Use.allowed_owned owned (inScope_shared isThread)
      · rw [List.mem_singleton] at loadedOther
        subst loadedOther
        exact Use.allowed_load onlyRead (inScope_shared (by omega))
    · rw [List.mem_singleton] at stored
      subst stored
      exact Use.allowed_owned owned (inScope_shared isThread)
  · rw [(round_inactive ready isRound active).2, untouched] at accessed
    cases accessed

/-- The code of the first round stands before that of the others. -/
theorem roundsCode_cons
    (stride step : Nat)
    (rest : List (Nat × Nat)) :
    roundsCode ((stride, step) :: rest) =
      guarded (20 + step : Nat) (roundBody stride) ++
        ([barrier] ++ roundsCode rest) := by
  simp [roundsCode, reductionRound, roundBody]

/-- One round, up to its barrier. -/
theorem addsOnce
    (setting : Setting numElements blockSize warpSize block)
    {stride step : Nat}
    {rest : List (Nat × Nat)}
    (isRound : (stride, step) ∈ (strides blockSize).zipIdx)
    (holds : kernel.Holds start (roundsCode ((stride, step) :: rest)))
    (size :
      kernel.size =
        start + (roundsCode ((stride, step) :: rest)).length)
    (does : OwnPaths.Does kernel pc start (fun _ => True) prologue)
    (keeps :
      ∀ own,
        (prologue own).memory = own.memory ∧
          (prologue own).touched = own.touched)
    (ready :
      ∀ localId < threadsInBlock numElements blockSize block,
        Ready numElements blockSize block localId
          (prologue ⟨lane localId, memory, []⟩).lane)
    (holding : Holding numElements blockSize block value memory)
    (goesOn :
      ∀ later,
        Holding numElements blockSize block (StridedSum.round stride value)
          later →
        kernel.Holds (start + 11) (roundsCode rest) →
        kernel.size = start + 11 + (roundsCode rest).length →
        Completes kernel numElements blockSize warpSize block input
          (start + 11)
          (fun localId =>
            ((prologue ⟨lane localId, memory, []⟩).executeGuarded
              (20 + step : Nat) (roundBody stride)).lane)
          later) :
    Completes kernel numElements blockSize warpSize block input pc lane
      memory := by
  have bodyLength :
      (guarded (20 + step : Nat) (roundBody stride)).length = 10 :=
    rfl
  rw [roundsCode_cons] at holds size
  have barrierHolds := holds.right
  rw [bodyLength] at barrierHolds
  rw [List.length_append, bodyLength, List.length_append,
    List.length_singleton] at size
  have code :
      OwnPaths.Does kernel start (start + 10) (fun _ => True)
        (OwnLane.executeGuarded (20 + step : Nat) (roundBody stride)) :=
    OwnPaths.Does.guarded holds.left (List.cons_ne_nil _ _)
      (roundBody_straight stride)
  refine
    @Bulk.toBarrier kernel warpSize _ _ (start + 10) _ _ _ _
      (useShared blockSize
        (ownCell
          (min stride (threadsInBlock numElements blockSize block))))
      _ _ lane setting.someLanes setting.narrow
      (does.trans code fun _ _ => trivial) ?_ barrierHolds.head
      (fun _ _ => trivial) ?_ ?_ ?_
  · have some := length_roundsCode_pos rest
    omega
  · intro localId inside
    exact
      round_allowed setting inside (ready localId inside) (keeps _).2
        isRound
  · intro address inScope notMine
    exact useShared_below (input_of_notMine inScope notMine).1
  · intro later collected
    refine
      goesOn later (holding.round ?_ collected ?_) barrierHolds.right
        (by omega)
    · exact (mem_strides (round_lt setting.small isRound).1).2
    · intro localId inside active
      rw [(round_active setting (ready localId inside) isRound active).1,
        (keeps _).1]
      exact Function.update_self ..

/-- The rounds, one by one, and the writing after them. -/
theorem addsUp
    (setting : Setting numElements blockSize warpSize block)
    (someThreads : 0 < blockSize)
    {steps : List Nat}
    {step : Nat}
    (areRounds :
      ∀ round ∈ steps.zipIdx step, round ∈ (strides blockSize).zipIdx)
    (holds : kernel.Holds start (roundsCode (steps.zipIdx step)))
    (size : kernel.size = start + (roundsCode (steps.zipIdx step)).length)
    (does : OwnPaths.Does kernel pc start (fun _ => True) prologue)
    (keeps :
      ∀ own,
        (prologue own).memory = own.memory ∧
          (prologue own).touched = own.touched)
    (ready :
      ∀ localId < threadsInBlock numElements blockSize block,
        Ready numElements blockSize block localId
          (prologue ⟨lane localId, memory, []⟩).lane)
    (holding : Holding numElements blockSize block value memory)
    (result :
      StridedSum.rounds steps value 0 =
        StridedSum.rounds (strides blockSize)
          (segment numElements blockSize input block) 0) :
    Completes kernel numElements blockSize warpSize block input pc lane
      memory := by
  induction steps generalizing step pc start prologue lane memory value with
  | nil =>
      exact
        writesOut setting someThreads holds size does keeps ready holding
          result
  | cons stride rest inductionHypothesis =>
      rw [List.zipIdx_cons] at areRounds holds size
      refine
        addsOnce setting (areRounds _ List.mem_cons_self) holds size does
          keeps ready holding fun later holding holds size => ?_
      exact
        inductionHypothesis
          (fun round member =>
            areRounds round (List.mem_cons_of_mem _ member))
          holds size OwnPaths.Does.refl (fun _ => ⟨rfl, rfl⟩)
          (fun localId inside =>
            (ready localId inside).executeRound setting.small _ stride)
          holding result

/-- The elements of a block are in its scope. -/
theorem inScope_input
    {localId : Nat}
    (setting : Setting numElements blockSize warpSize block)
    (inside : localId < threadsInBlock numElements blockSize block) :
    InScope (writer numElements blockSize) block
      ((block * blockSize + localId) * 4) := by
  have isElement := (element_of_thread inside).2
  have fits := setting.fits
  exact Or.inl (cellWriter_input (by omega) (by omega))

/-- The cells hold the elements once every thread has loaded its own. -/
theorem Holding.of_loaded
    (setting : Setting numElements blockSize warpSize block)
    (agrees :
      ∀ address,
        InScope (writer numElements blockSize) block address →
        memory address =
          GPU.placedView (GPU.placedWords numElements input) address)
    {later : Nat → Word}
    {own : Nat → Nat → Word}
    (collected :
      Collected (threadsInBlock numElements blockSize block)
        (useShared blockSize
          (ownCell (threadsInBlock numElements blockSize block)))
        (InScope (writer numElements blockSize) block) memory own later)
    (loaded :
      ∀ localId < threadsInBlock numElements blockSize block,
        own localId (sharedCell blockSize block localId) =
          memory ((block * blockSize + localId) * 4)) :
    Holding numElements blockSize block
      (segment numElements blockSize input block) later where
  lacks _ outside := if_neg (Nat.not_lt.mpr outside)
  cells index isCell := by
    have below : numElements * 4 ≤ MemorySystem.sharedMemBase := by
      have fits := setting.fits
      omega
    have declared :=
      @useShared_ownCell blockSize block
        (threadsInBlock numElements blockSize block) index isCell
    unfold segment
    by_cases inside :
        index < threadsInBlock numElements blockSize block
    · rw [if_pos inside] at declared ⊢
      rw [collected.owned index inside _ (inScope_shared isCell) declared,
        loaded index inside]
      exact
        (agrees _ (inScope_input setting inside)).trans
          (GPU.placedView_word below (element_of_thread inside).2)
    · rw [if_neg inside] at declared ⊢
      rw [collected.readOnly _ (inScope_shared isCell) declared,
        agrees _ (inScope_shared isCell),
        GPU.placedView_rest (below.trans sharedCell_shared)]
  outputs address above isGlobal inScope := by
    rw [collected.readOnly address inScope (useShared_below isGlobal),
      agrees address inScope, GPU.placedView_rest above]

/-- The first phase: the elements are loaded. -/
theorem loads
    (setting : Setting numElements blockSize warpSize block)
    (someThreads : 0 < blockSize)
    (laid : Laid kernel blockSize)
    (registers :
      ∀ localId < threadsInBlock numElements blockSize block,
        Registers numElements blockSize block localId (lane localId))
    (agrees :
      ∀ address,
        InScope (writer numElements blockSize) block address →
        memory address =
          GPU.placedView (GPU.placedWords numElements input) address) :
    Completes kernel numElements blockSize warpSize block input 0 lane
      memory := by
  have loaded
      {localId : Nat}
      (inside : localId < threadsInBlock numElements blockSize block) :=
    @load_registers numElements blockSize warpSize block localId
      ⟨lane localId, memory, []⟩ setting (registers localId inside)
      (element_of_thread inside).1 (element_of_thread inside).2
  have code :
      OwnPaths.Does kernel 0 2 (fun _ => True)
        (OwnLane.executeAll loadBody) :=
    OwnPaths.Does.straight laid.load (by decide)
  refine
    @Bulk.toBarrier kernel warpSize _ 0 2 _ _ _ _
      (useShared blockSize
        (ownCell (threadsInBlock numElements blockSize block)))
      _ _ lane setting.someLanes setting.narrow code ?_ laid.barrier
      (fun _ _ => trivial) ?_ ?_ ?_
  · rw [laid.size]
    omega
  · intro localId inside access accessed
    obtain ⟨isThread, isElement⟩ := element_of_thread inside
    have fits := setting.fits
    rw [(loaded inside).2.2] at accessed
    rcases List.mem_append.mp accessed with loads | stored
    · rcases List.mem_append.mp loads with none | isLoad
      · cases none
      · rw [List.mem_singleton] at isLoad
        subst isLoad
        exact
          Use.allowed_load (useShared_below (by omega))
            (inScope_input setting inside)
    · rw [List.mem_singleton] at stored
      subst stored
      have owned :=
        @useShared_ownCell blockSize block
          (threadsInBlock numElements blockSize block) localId isThread
      rw [if_pos inside] at owned
      exact Use.allowed_owned owned (inScope_shared isThread)
  · intro address inScope notMine
    exact useShared_below (input_of_notMine inScope notMine).1
  · intro later collected
    refine
      addsUp setting someThreads (fun _ member => member) laid.rounds
        laid.size
        (OwnPaths.Does.straight laid.zero (by decide)) ?_ ?_
        (.of_loaded setting agrees collected ?_) rfl
    · intro own
      simp only [OwnLane.executeAll_cons, OwnLane.executeAll_nil,
        OwnLane.execute_mov, and_self]
    · intro localId inside
      exact
        (@Registers.zeroed _ _ _ _ ⟨_, later, []⟩ setting.small
          (loaded inside).1).1
    · intro localId inside
      rw [(loaded inside).2.1]
      exact Function.update_self ..

end Rounds

/-! ## Runs -/

/-- The threads of the reduction grid belong to their blocks. -/
theorem reductionThread_blockId
    {numElements blockSize warpSize block warpId lane : Nat}
    {thread : Thread}
    (built :
      reductionThread numElements blockSize warpSize block warpId lane =
        .ok thread) :
    thread.blockId = block :=
  writeRegisters_blockId built

/-- The positions that powers of two add up to are all of them. -/
theorem mem_gathered_halvings
    {fuel digits position : Nat}
    (enough : digits < fuel)
    (inside : position < 2 ^ (digits + 1)) :
    position ∈ StridedSum.gathered (halvings fuel (2 ^ digits)) := by
  induction digits generalizing fuel position with
  | zero =>
      obtain ⟨fuel, rfl⟩ := Nat.exists_eq_add_of_lt enough
      have last : halvings (0 + fuel) (2 ^ 0 / 2) = [] := by
        cases fuel <;> rfl
      rw [halvings, if_pos (by decide), last]
      simp [StridedSum.gathered]
      omega
  | succ digits inductionHypothesis =>
      obtain ⟨fuel, rfl⟩ :
          ∃ rest, fuel = rest + 1 :=
        Nat.exists_eq_add_one.mpr (by omega)
      have half : 2 ^ (digits + 1) / 2 = 2 ^ digits := by
        rw [Nat.pow_succ, Nat.mul_div_cancel _ (by decide)]
      rw [halvings, if_pos (Nat.two_pow_pos _), half, StridedSum.gathered,
        List.mem_append, List.mem_map]
      by_cases small : position < 2 ^ (digits + 1)
      · exact Or.inl (inductionHypothesis (by omega) small)
      · refine
          Or.inr
            ⟨position - 2 ^ (digits + 1),
              inductionHypothesis (by omega) ?_, by omega⟩
        rw [Nat.pow_succ] at inside
        omega

/-- Blocks of a power of two threads have strides for every position. -/
theorem mem_gathered_strides
    {digits position : Nat}
    (inside : position < 2 ^ digits) :
    position ∈ StridedSum.gathered (strides (2 ^ digits)) := by
  cases digits with
  | zero =>
      have isZero : position = 0 := by
        omega
      subst isZero
      exact List.mem_singleton.mpr rfl
  | succ digits =>
      have half : 2 ^ (digits + 1) / 2 = 2 ^ digits := by
        rw [Nat.pow_succ, Nat.mul_div_cancel _ (by decide)]
      rw [strides, half]
      exact mem_gathered_halvings Nat.lt_two_pow_self inside

section Runs

variable {σ : Type}
variable [WarpScheduler σ]
variable [LawfulWarpScheduler σ]
variable {numElements blockSize warpSize : Nat}
variable {input : Nat → Word}
variable {grid : Grid}
variable {config launchConfig : SystemConfig}
variable {createScheduler : SystemConfig → Except SimError σ}
variable {rng : Nat → Nat → Nat → Nat}
variable {gpu after : GPU σ}
variable {req : KernelResourceRequirements}
variable {fuel : Nat}

/-- What rounds leave of a block are the elements that strides add up to. -/
theorem rounds_segment
    (block : Nat) :
    StridedSum.rounds (strides blockSize)
        (segment numElements blockSize input block) 0 =
      ∑ localId ∈
          Finset.range (threadsInBlock numElements blockSize block) with
          localId ∈ StridedSum.gathered (strides blockSize),
        input (block * blockSize + localId) := by
  have falling : StridedSum.Falling (strides blockSize) :=
    halvings_falling _ _
  rw [StridedSum.rounds_zero falling,
    ← List.sum_toFinset _ (StridedSum.gathered_nodup falling)]
  unfold segment
  rw [← Finset.sum_filter]
  refine Finset.sum_congr ?_ fun _ _ => rfl
  ext localId
  simp [and_comm]

/-- After a run the cell of a block holds what its rounds left. -/
theorem outputCell_final
    (someThreads : 0 < blockSize)
    (small : blockSize ≤ 4096)
    (someLanes : 0 < warpSize)
    (narrow : warpSize ≤ 32)
    (isInt : blockSize < 2 ^ 31)
    (fits :
      numElements * 4 + numBlocks numElements blockSize * 4 ≤
        MemorySystem.sharedMemBase)
    (built : buildReductionGrid numElements blockSize warpSize = .ok grid)
    (fresh : GPU.new config createScheduler rng = .ok gpu)
    (hasSms : 0 < config.numSms)
    (ran :
      (gpu.place (GPU.placedWords numElements input)).launchAndRun grid
          launchConfig req (generateReductionKernel blockSize isInt) fuel =
        some (.ok after))
    {block : Nat}
    (isBlock : block < numBlocks numElements blockSize) :
    after.globalMemory.data (outputCell numElements block) =
      StridedSum.rounds (strides blockSize)
        (segment numElements blockSize input block) 0 := by
  have laid := laid_generated isInt
  have hasCode :
      0 < (generateReductionKernel blockSize isInt).size := by
    rw [laid.size]
    omega
  have below :
      numElements * 4 + block * 4 < MemorySystem.sharedMemBase := by
    omega
  have goalCell :
      goal numElements blockSize input (outputCell numElements block) =
        StridedSum.rounds (strides blockSize)
          (segment numElements blockSize input block) 0 := by
    have aligned :
        (outputCell numElements block - numElements * 4) % 4 = 0 := by
      unfold outputCell
      omega
    have number :
        (outputCell numElements block - numElements * 4) / 4 = block := by
      unfold outputCell
      omega
    rw [goal, if_pos aligned, number]
  have isMine :
      Mine (writer numElements blockSize) block
        (outputCell numElements block) :=
    cellWriter_output below
  rw [← goalCell]
  refine
    GPU.elementGrid_correct someThreads someLanes narrow hasCode built
      (fun _ _ _ _ isBuilt => reductionThread_blockId isBuilt) ?_ fresh
      hasSms ran (isGlobal_iff.mpr below) isBlock isMine
  intro other isOther warps warpsBuilt memory agrees
  have some :=
    threads_nonempty someThreads
      (isOther.trans_le (numBlocks_le_count _ _))
  have setting : Setting numElements blockSize warpSize other :=
    ⟨small, someLanes, narrow, by omega, by omega⟩
  exact
    loads setting someThreads laid
      (fun localId inside =>
        builtLane_registers someLanes small warpsBuilt inside)
      agrees

/--
A run of the benchmark leaves the sum of every block in its output cell exactly
if the elements that no strides add up to have the sum zero.
-/
theorem reduction_correct_iff
    (someThreads : 0 < blockSize)
    (small : blockSize ≤ 4096)
    (someLanes : 0 < warpSize)
    (narrow : warpSize ≤ 32)
    (isInt : blockSize < 2 ^ 31)
    (fits :
      numElements * 4 + numBlocks numElements blockSize * 4 ≤
        MemorySystem.sharedMemBase)
    (built : buildReductionGrid numElements blockSize warpSize = .ok grid)
    (fresh : GPU.new config createScheduler rng = .ok gpu)
    (hasSms : 0 < config.numSms)
    (ran :
      (gpu.place (GPU.placedWords numElements input)).launchAndRun grid
          launchConfig req (generateReductionKernel blockSize isInt) fuel =
        some (.ok after)) :
    (∀ block < numBlocks numElements blockSize,
        after.globalMemory.data (numElements * 4 + block * 4) =
          ∑ localId ∈
              Finset.range (threadsInBlock numElements blockSize block),
            input (block * blockSize + localId)) ↔
      ∀ block < numBlocks numElements blockSize,
        ∑ localId ∈
            Finset.range (threadsInBlock numElements blockSize block) with
            localId ∉ StridedSum.gathered (strides blockSize),
          input (block * blockSize + localId) =
            0 := by
  refine forall₂_congr fun block isBlock => ?_
  have final :=
    outputCell_final someThreads small someLanes narrow isInt fits built
      fresh hasSms ran isBlock
  rw [rounds_segment] at final
  have split :=
    Finset.sum_filter_add_sum_filter_not
      (Finset.range (threadsInBlock numElements blockSize block))
      (fun localId => localId ∈ StridedSum.gathered (strides blockSize))
      fun localId => input (block * blockSize + localId)
  change after.globalMemory.data (outputCell numElements block) = _ ↔ _
  rw [final, ← split]
  exact left_eq_add

/-- A run with blocks of a power of two threads leaves all sums. -/
theorem reduction_correct
    {digits : Nat}
    (isPower : blockSize = 2 ^ digits)
    (small : blockSize ≤ 4096)
    (someLanes : 0 < warpSize)
    (narrow : warpSize ≤ 32)
    (isInt : blockSize < 2 ^ 31)
    (fits :
      numElements * 4 + numBlocks numElements blockSize * 4 ≤
        MemorySystem.sharedMemBase)
    (built : buildReductionGrid numElements blockSize warpSize = .ok grid)
    (fresh : GPU.new config createScheduler rng = .ok gpu)
    (hasSms : 0 < config.numSms)
    (ran :
      (gpu.place (GPU.placedWords numElements input)).launchAndRun grid
          launchConfig req (generateReductionKernel blockSize isInt) fuel =
        some (.ok after))
    {block : Nat}
    (isBlock : block < numBlocks numElements blockSize) :
    after.globalMemory.data (outputCell numElements block) =
      ∑ localId ∈
          Finset.range (threadsInBlock numElements blockSize block),
        input (block * blockSize + localId) := by
  have someThreads : 0 < blockSize := by
    rw [isPower]
    exact Nat.two_pow_pos _
  rw [outputCell_final someThreads small someLanes narrow isInt fits built
    fresh hasSms ran isBlock, rounds_segment, Finset.filter_true_of_mem]
  intro localId member
  have inside := (element_of_thread (Finset.mem_range.mp member)).1
  subst isPower
  exact mem_gathered_strides inside

end Runs

/-! ## Runs on one multiprocessor -/

/-- One multiprocessor with room for one block of three threads. -/
def tiny : SystemConfig where
  numSms := 1
  warpSize := 1
  blockSize := 3
  maxThreadsPerSm := 3
  maxBlocksPerSm := 1
  maxSharedMemoryPerSm := 12
  maxRegistersPerSm := 96
  maxWarpsPerSm := 3
  l1Sets := 1
  l1Associativity := 1
  l1LineSize := 4
  l2Sets := 1
  l2Associativity := 1
  l2LineSize := 4
  l1Latency := 1
  l2Latency := 1
  globalMemoryLatency := 1
  writebackLatency := 0
  sharedMemoryBanks := 1
  globalMemorySize := 16

/-- A run on it that adds elements up in blocks of some size. -/
def TinyRun
    (numElements blockSize : Nat)
    (isInt : blockSize < 2 ^ 31)
    (input : Nat → Word)
    (after : GPU Scheduler) :
    Prop :=
  ∃ grid gpu,
    buildReductionGrid numElements blockSize 1 = .ok grid ∧
      GPU.new tiny (fun _ => .ok Scheduler.greedy) (fun _ _ _ => 0) =
        .ok gpu ∧
      (gpu.place (GPU.placedWords numElements input)).launchAndRun grid tiny
          ⟨32, 12⟩ (generateReductionKernel blockSize isInt) 200 =
        some (.ok after)

/-- Whether such a run returns normally. -/
def returns
    (numElements blockSize : Nat)
    (isInt : blockSize < 2 ^ 31)
    (input : Nat → Word) :
    Bool :=
  match buildReductionGrid numElements blockSize 1,
    GPU.new tiny (fun _ => .ok Scheduler.greedy) (fun _ _ _ => 0) with
  | .ok grid, .ok gpu =>
      ((gpu.place (GPU.placedWords numElements input)).launchAndRun grid
          tiny ⟨32, 12⟩ (generateReductionKernel blockSize isInt)
          200).any
        Except.isOk
  | _, _ => false

theorem exists_tinyRun
    {numElements blockSize : Nat}
    {isInt : blockSize < 2 ^ 31}
    {input : Nat → Word}
    (isOk : returns numElements blockSize isInt input = true) :
    ∃ after, TinyRun numElements blockSize isInt input after := by
  unfold returns at isOk
  split at isOk
  · rename_i grid gpu built fresh
    obtain ⟨after, ran⟩ := option_any_isOk isOk
    exact ⟨after, grid, gpu, built, fresh, ran⟩
  · cases isOk

/-- The last of three elements is in no sum. -/
theorem reduction_drops_element :
    ∃ after,
      TinyRun 3 3 (by decide) (fun index => BitVec.ofNat 32 index) after ∧
        after.globalMemory.data (3 * 4 + 0 * 4) ≠
          ∑ localId ∈ Finset.range (threadsInBlock 3 3 0),
            BitVec.ofNat 32 (0 * 3 + localId) := by
  obtain ⟨after, run⟩ :=
    @exists_tinyRun 3 3 (by decide) (fun index => BitVec.ofNat 32 index)
      (by decide +kernel)
  refine ⟨after, run, ?_⟩
  obtain ⟨grid, gpu, built, fresh, ran⟩ := run
  have final :=
    @outputCell_final Scheduler _ _ 3 3 1
      (fun index => BitVec.ofNat 32 index) grid tiny tiny _ _ gpu after _ _
      (by decide) (by decide) (by decide) (by decide) (by decide)
      (by decide) built fresh (by decide) ran 0 (by decide)
  change after.globalMemory.data (outputCell 3 0) ≠ _
  rw [final, rounds_segment]
  decide

/-- Two elements in a block of two threads are added. -/
theorem reduction_correct_iff_twoElements :
    ∃ after,
      TinyRun 2 2 (by decide) (fun index => BitVec.ofNat 32 index) after ∧
        after.globalMemory.data (2 * 4 + 0 * 4) =
          ∑ localId ∈ Finset.range (threadsInBlock 2 2 0),
            BitVec.ofNat 32 (0 * 2 + localId) := by
  obtain ⟨after, run⟩ :=
    @exists_tinyRun 2 2 (by decide) (fun index => BitVec.ofNat 32 index)
      (by decide +kernel)
  refine ⟨after, run, ?_⟩
  obtain ⟨grid, gpu, built, fresh, ran⟩ := run
  exact
    (@reduction_correct_iff Scheduler _ _ 2 2 1
      (fun index => BitVec.ofNat 32 index) grid tiny tiny _ _ gpu after _ _
      (by decide) (by decide) (by decide) (by decide) (by decide)
      (by decide) built fresh (by decide) ran).mpr
      (by decide) 0 (by decide)

end Reduction

end SimSm
