import SimSm.Tick

namespace SimSm

/-!
# The resource ledger of a multiprocessor

Five counters, the list of resident blocks and the warp vector are updated by
separate code when a block is admitted, released or cleared.  The operations
keep them in step.
-/

/-- A block whose warps all have threads, and threads of that block only. -/
def ThreadBlock.WellFormed (block : ThreadBlock) : Prop :=
  ∀ warp ∈ block.warps,
    warp.threads ≠ [] ∧
      ∀ thread ∈ warp.threads, thread.blockId = block.blockId

/-- The warps of a well-formed block are recognised as its warps. -/
theorem ThreadBlock.WellFormed.blockId?
    {block : ThreadBlock}
    {warp : Warp}
    (wellFormed : block.WellFormed)
    (member : warp ∈ block.warps) :
    warp.blockId? = some block.blockId := by
  obtain ⟨nonempty, carry⟩ := wellFormed warp member
  obtain ⟨thread, rest, shape⟩ := List.exists_cons_of_ne_nil nonempty
  rw [Warp.blockId?, shape]
  simp only [List.head?_cons, Option.map_some, Option.some.injEq]
  exact carry thread (by simp [shape])

/-- Building a warp sets its id, its threads and its mask only. -/
theorem Warp.ofThreads_shape
    (warpId : Nat)
    (threads : List Thread) :
    ∃ mask,
      Warp.ofThreads warpId threads =
        { warpId := warpId, threads := threads, activeMask := mask } := by
  induction threads using List.reverseRecOn with
  | nil => exact ⟨0, rfl⟩
  | append_singleton earlier last inductionHypothesis =>
      obtain ⟨mask, shape⟩ := inductionHypothesis
      rw [Warp.ofThreads, List.foldl_append]
      change ∃ mask, (Warp.ofThreads warpId earlier).addThread last = _
      rw [shape]
      exact ⟨_, rfl⟩

/-- A block of one-thread warps. -/
def ThreadBlock.narrow (blockId numWarps : Nat) : ThreadBlock where
  blockId := blockId
  warps :=
    (List.range numWarps).map fun warpId =>
      Warp.ofThreads warpId [Thread.new warpId blockId warpId warpId 0]

/-- Blocks of one-thread warps are well formed. -/
theorem ThreadBlock.narrow_wellFormed
    (blockId numWarps : Nat) :
    (ThreadBlock.narrow blockId numWarps).WellFormed := by
  intro warp member
  obtain ⟨warpId, _, rfl⟩ := List.mem_map.mp member
  simp [Warp.ofThreads, Warp.addThread, Thread.new, narrow]

namespace SM

variable {σ : Type}

/-- A multiprocessor to which no block is charged. -/
structure Vacant (sm : SM σ) : Prop where
  warps : sm.warps = []
  residentBlocks : sm.residentBlocks = []
  allocatedBlocks : sm.allocatedBlocks = 0
  allocatedWarps : sm.allocatedWarps = 0
  allocatedThreads : sm.allocatedThreads = 0
  allocatedRegisters : sm.allocatedRegisters = 0
  allocatedSharedMemory : sm.allocatedSharedMemory = 0

/-- A cleared multiprocessor is vacant. -/
theorem clearWarps_vacant (sm : SM σ) : sm.clearWarps.Vacant :=
  ⟨rfl, rfl, rfl, rfl, rfl, rfl, rfl⟩

/-- A vacant multiprocessor with a scheduler. -/
def vacantWith (scheduler : σ) : SM σ where
  scheduler := some scheduler
  l1Cache := (MemorySystem.minimal 1).l1Cache
  sharedMemory := (MemorySystem.minimal 1).sharedMemory

theorem vacantWith_vacant
    (scheduler : σ) :
    (vacantWith scheduler).Vacant :=
  ⟨rfl, rfl, rfl, rfl, rfl, rfl, rfl⟩

/-! ## Admission -/

/-- Adding the warps of a block only extends the warp vector. -/
theorem addWarps_fields
    (warps : List Warp)
    (sm : SM σ) :
    let after :=
      warps.foldl
        (fun sm warp =>
          let added := sm.addWarp warp
          { added with
            counters :=
              added.counters.initializeWarpIssueCount warp.warpId })
        sm
    after.warps = sm.warps ++ warps ∧
      after.scheduler = sm.scheduler ∧ SameLedger sm after := by
  induction warps generalizing sm with
  | nil =>
      exact
        ⟨(List.append_nil _).symm, rfl, ⟨rfl, rfl, rfl, rfl, rfl, rfl⟩⟩
  | cons warp rest inductionHypothesis =>
      obtain ⟨warps, scheduler, ledger⟩ :=
        inductionHypothesis
          { sm.addWarp warp with
            counters :=
              (sm.addWarp warp).counters.initializeWarpIssueCount
                warp.warpId }
      refine
        ⟨?_, scheduler,
          ⟨ledger.1, ledger.2, ledger.3, ledger.4, ledger.5, ledger.6⟩⟩
      rw [List.foldl_cons, warps]
      simp [addWarp]

/-- What admitting a block does. -/
structure Admits
    (sm : SM σ)
    (block : ThreadBlock)
    (req : KernelResourceRequirements)
    (after : SM σ) : Prop where
  warps : after.warps = sm.warps ++ block.warps
  scheduler : after.scheduler = sm.scheduler
  residentBlocks :
    after.residentBlocks = sm.residentBlocks ++ [chargeOf block req]
  allocatedBlocks : after.allocatedBlocks = sm.allocatedBlocks + 1
  allocatedWarps :
    after.allocatedWarps = sm.allocatedWarps + (chargeOf block req).numWarps
  allocatedThreads :
    after.allocatedThreads =
      sm.allocatedThreads + (chargeOf block req).numThreads
  allocatedRegisters :
    after.allocatedRegisters =
      sm.allocatedRegisters + (chargeOf block req).allocatedRegisters
  allocatedSharedMemory :
    after.allocatedSharedMemory =
      sm.allocatedSharedMemory + (chargeOf block req).allocatedSharedMemory

theorem allocateBlock_admits
    (sm : SM σ)
    (block : ThreadBlock)
    (req : KernelResourceRequirements) :
    Admits sm block req (sm.allocateBlock block req) := by
  obtain ⟨warps, scheduler, ledger⟩ :=
    addWarps_fields block.warps
      { sm with
        allocatedBlocks := sm.allocatedBlocks + 1
        allocatedWarps := sm.allocatedWarps + (chargeOf block req).numWarps
        allocatedThreads :=
          sm.allocatedThreads + (chargeOf block req).numThreads
        allocatedRegisters :=
          sm.allocatedRegisters + (chargeOf block req).allocatedRegisters
        allocatedSharedMemory :=
          sm.allocatedSharedMemory +
            (chargeOf block req).allocatedSharedMemory
        residentBlocks := sm.residentBlocks ++ [chargeOf block req] }
  exact
    ⟨warps, scheduler, ledger.1, ledger.2, ledger.3, ledger.4, ledger.5,
      ledger.6⟩

/-! ## Release -/

/-- Dropping completed warps does not change which blocks are completed. -/
theorem allCompleted_filter
    {warps : List Warp}
    {dropped queried : Nat}
    (finished : allCompleted warps dropped = true) :
    allCompleted (warps.filter fun warp => !belongsTo warp dropped) queried =
      allCompleted warps queried := by
  rw [Bool.eq_iff_iff]
  simp only [allCompleted, List.all_eq_true, List.mem_filter,
    Bool.or_eq_true, Bool.not_eq_true', beq_iff_eq] at finished ⊢
  constructor
  · intro keptCompleted warp member
    rcases finished warp member with elsewhere | completed
    · exact keptCompleted warp ⟨member, elsewhere⟩
    · exact Or.inr completed
  · intro completed warp kept
    exact completed warp kept.1

/-- The blocks of a list whose warps are all completed. -/
def finishedBlocks
    (warps : List Warp)
    (blocks : List ResidentBlock) :
    List ResidentBlock :=
  blocks.filter fun block => allCompleted warps block.blockId

/-- The blocks of a list with a warp that is not completed. -/
def unfinishedBlocks
    (warps : List Warp)
    (blocks : List ResidentBlock) :
    List ResidentBlock :=
  blocks.filter fun block => !allCompleted warps block.blockId

/-- The release loop drops the finished blocks and refunds their charges. -/
theorem releaseLoop_eq
    (sm : SM σ)
    (kept blocks : List ResidentBlock) :
    let finished := finishedBlocks sm.warps blocks
    sm.releaseLoop kept blocks =
      { sm with
        residentBlocks := kept ++ unfinishedBlocks sm.warps blocks
        warps :=
          sm.warps.filter fun warp =>
            !finished.any fun block => belongsTo warp block.blockId
        allocatedBlocks := sm.allocatedBlocks - finished.length
        allocatedWarps :=
          sm.allocatedWarps - (finished.map ResidentBlock.numWarps).sum
        allocatedThreads :=
          sm.allocatedThreads - (finished.map ResidentBlock.numThreads).sum
        allocatedRegisters :=
          sm.allocatedRegisters -
            (finished.map ResidentBlock.allocatedRegisters).sum
        allocatedSharedMemory :=
          sm.allocatedSharedMemory -
            (finished.map ResidentBlock.allocatedSharedMemory).sum } := by
  induction blocks generalizing sm kept with
  | nil =>
      simp [releaseLoop, finishedBlocks, unfinishedBlocks]
  | cons block rest inductionHypothesis =>
      cases completed : allCompleted sm.warps block.blockId with
      | false =>
          rw [releaseLoop, completed, if_neg (by simp),
            inductionHypothesis]
          simp [finishedBlocks, unfinishedBlocks, completed]
      | true =>
          have finishedCons :
              finishedBlocks sm.warps (block :: rest) =
                block :: finishedBlocks sm.warps rest := by
            simp [finishedBlocks, completed]
          have unfinishedCons :
              unfinishedBlocks sm.warps (block :: rest) =
                unfinishedBlocks sm.warps rest := by
            simp [unfinishedBlocks, completed]
          have sameFinished :
              finishedBlocks (sm.releaseBlock block).warps rest =
                finishedBlocks sm.warps rest := by
            simp only [finishedBlocks, releaseBlock,
              allCompleted_filter completed]
          have sameUnfinished :
              unfinishedBlocks (sm.releaseBlock block).warps rest =
                unfinishedBlocks sm.warps rest := by
            simp only [unfinishedBlocks, releaseBlock,
              allCompleted_filter completed]
          rw [releaseLoop, completed, if_pos rfl, inductionHypothesis,
            sameFinished, sameUnfinished, finishedCons, unfinishedCons]
          simp only [releaseBlock, List.length_cons, List.map_cons,
            List.sum_cons, List.any_cons, Bool.not_or, Nat.sub_sub,
            List.filter_filter, Nat.add_comm 1]
          congr 1
          exact List.filter_congr fun warp _ => Bool.and_comm _ _

/-- What releasing the completed blocks does. -/
theorem releaseCompletedBlocks_eq (sm : SM σ) :
    let finished := finishedBlocks sm.warps sm.residentBlocks
    sm.releaseCompletedBlocks =
      { sm with
        residentBlocks := unfinishedBlocks sm.warps sm.residentBlocks
        warps :=
          sm.warps.filter fun warp =>
            !finished.any fun block => belongsTo warp block.blockId
        allocatedBlocks := sm.allocatedBlocks - finished.length
        allocatedWarps :=
          sm.allocatedWarps - (finished.map ResidentBlock.numWarps).sum
        allocatedThreads :=
          sm.allocatedThreads - (finished.map ResidentBlock.numThreads).sum
        allocatedRegisters :=
          sm.allocatedRegisters -
            (finished.map ResidentBlock.allocatedRegisters).sum
        allocatedSharedMemory :=
          sm.allocatedSharedMemory -
            (finished.map ResidentBlock.allocatedSharedMemory).sum } := by
  simpa [releaseCompletedBlocks] using releaseLoop_eq sm [] sm.residentBlocks

/-- What a release keeps of a list of labels, one for each warp. -/
def retain {α : Type} (sm : SM σ) (labels : List α) : List α :=
  let finished := finishedBlocks sm.warps sm.residentBlocks
  ((sm.warps.zip labels).filter fun labelled =>
    !finished.any fun block =>
      belongsTo labelled.1 block.blockId).map Prod.snd

/-- A release keeps the labels of the warps that it keeps. -/
theorem retain_related
    {α : Type}
    {sm : SM σ}
    {labels : List α}
    {related : Warp → α → Prop}
    (pointwise : List.Forall₂ related sm.warps labels) :
    List.Forall₂ related sm.releaseCompletedBlocks.warps
      (sm.retain labels) := by
  rw [releaseCompletedBlocks_eq]
  exact Pointwise.filter_zip _ pointwise

/-- A release keeps each of its warps with its label. -/
theorem retain_zip
    {α : Type}
    {sm : SM σ}
    {labels : List α}
    (lengths : labels.length = sm.warps.length) :
    let finished := finishedBlocks sm.warps sm.residentBlocks
    sm.releaseCompletedBlocks.warps.zip (sm.retain labels) =
      (sm.warps.zip labels).filter fun labelled =>
        !finished.any fun block =>
          belongsTo labelled.1 block.blockId := by
  rw [releaseCompletedBlocks_eq]
  exact Pointwise.zip_filter_zip _ lengths.symm

/-- A release keeps labels in their order. -/
theorem retain_sublist
    {α : Type}
    {sm : SM σ}
    {labels : List α}
    (lengths : labels.length = sm.warps.length) :
    (sm.retain labels).Sublist labels := by
  have all : (sm.warps.zip labels).map Prod.snd = labels :=
    List.map_snd_zip lengths.le
  conv_rhs => rw [← all]
  exact List.filter_sublist.map Prod.snd

/-- No subtraction of the release loop takes more than is allocated. -/
def ReleasesExactly (sm : SM σ) : List ResidentBlock → Prop
  | [] => True
  | block :: rest =>
      if allCompleted sm.warps block.blockId then
        1 ≤ sm.allocatedBlocks ∧
          block.numWarps ≤ sm.allocatedWarps ∧
          block.numThreads ≤ sm.allocatedThreads ∧
          block.allocatedRegisters ≤ sm.allocatedRegisters ∧
          block.allocatedSharedMemory ≤ sm.allocatedSharedMemory ∧
          (sm.releaseBlock block).ReleasesExactly rest
      else
        sm.ReleasesExactly rest

/-! ## The ledger -/

/-- Every counter is the sum of the charges of some blocks. -/
structure Charged (sm : SM σ) (blocks : List ResidentBlock) : Prop where
  count : sm.allocatedBlocks = blocks.length
  warps : sm.allocatedWarps = (blocks.map ResidentBlock.numWarps).sum
  threads : sm.allocatedThreads = (blocks.map ResidentBlock.numThreads).sum
  registers :
    sm.allocatedRegisters =
      (blocks.map ResidentBlock.allocatedRegisters).sum
  sharedMemory :
    sm.allocatedSharedMemory =
      (blocks.map ResidentBlock.allocatedSharedMemory).sum

/-- No counter exceeds its limit. -/
structure WithinLimits (sm : SM σ) (config : SystemConfig) : Prop where
  blocks : sm.allocatedBlocks ≤ config.maxBlocksPerSm
  warps : sm.allocatedWarps ≤ config.maxWarpsPerSm
  threads : sm.allocatedThreads ≤ config.maxThreadsPerSm
  registers : sm.allocatedRegisters ≤ config.maxRegistersPerSm
  sharedMemory : sm.allocatedSharedMemory ≤ config.maxSharedMemoryPerSm

/--
The resident blocks are the given admitted ones, and the warp vector holds
their warps, each once and in order.
-/
structure Houses
    (sm : SM σ)
    (resident : List (ThreadBlock × KernelResourceRequirements)) :
    Prop where
  charges :
    sm.residentBlocks =
      resident.map fun admitted => chargeOf admitted.1 admitted.2
  warps :
    sm.warps.map Warp.identity =
      (resident.flatMap fun admitted => admitted.1.warps).map Warp.identity
  distinct : (sm.residentBlocks.map ResidentBlock.blockId).Nodup
  wellFormed : ∀ admitted ∈ resident, admitted.1.WellFormed

/-- The charges of the finished and of the unfinished blocks add up. -/
theorem sum_finished_add_sum_unfinished
    (warps : List Warp)
    (blocks : List ResidentBlock)
    (amount : ResidentBlock → Nat) :
    ((finishedBlocks warps blocks).map amount).sum +
        ((unfinishedBlocks warps blocks).map amount).sum =
      (blocks.map amount).sum := by
  induction blocks with
  | nil =>
      rfl
  | cons block rest inductionHypothesis =>
      rw [List.map_cons, List.sum_cons, ← inductionHypothesis]
      cases completed : allCompleted warps block.blockId with
      | false =>
          simp only [finishedBlocks, unfinishedBlocks, List.filter_cons,
            completed]
          simp
          omega
      | true =>
          simp only [finishedBlocks, unfinishedBlocks, List.filter_cons,
            completed]
          simp
          omega

/-- Releasing refunds exactly the charges of the finished blocks. -/
theorem Charged.release
    {sm : SM σ}
    (charged : Charged sm sm.residentBlocks) :
    Charged sm.releaseCompletedBlocks
      sm.releaseCompletedBlocks.residentBlocks := by
  have split :=
    sum_finished_add_sum_unfinished sm.warps sm.residentBlocks
  have lengths :
      (finishedBlocks sm.warps sm.residentBlocks).length +
          (unfinishedBlocks sm.warps sm.residentBlocks).length =
        sm.residentBlocks.length := by
    simpa using split fun _ => 1
  have refund
      {allocated : Nat}
      {amount : ResidentBlock → Nat}
      (equal : allocated = (sm.residentBlocks.map amount).sum) :
      allocated -
          ((finishedBlocks sm.warps sm.residentBlocks).map amount).sum =
        ((unfinishedBlocks sm.warps sm.residentBlocks).map amount).sum := by
    have total := split amount
    omega
  rw [releaseCompletedBlocks_eq]
  refine
    ⟨?_, refund charged.warps, refund charged.threads,
      refund charged.registers, refund charged.sharedMemory⟩
  have total := charged.count
  dsimp only
  omega

/-- Counters that cover the charges of some blocks never underflow. -/
theorem releasesExactly_of_covered
    {sm : SM σ}
    {blocks : List ResidentBlock}
    (count : blocks.length ≤ sm.allocatedBlocks)
    (warps :
      (blocks.map ResidentBlock.numWarps).sum ≤ sm.allocatedWarps)
    (threads :
      (blocks.map ResidentBlock.numThreads).sum ≤ sm.allocatedThreads)
    (registers :
      (blocks.map ResidentBlock.allocatedRegisters).sum ≤
        sm.allocatedRegisters)
    (sharedMemory :
      (blocks.map ResidentBlock.allocatedSharedMemory).sum ≤
        sm.allocatedSharedMemory) :
    sm.ReleasesExactly blocks := by
  induction blocks generalizing sm with
  | nil =>
      trivial
  | cons block rest inductionHypothesis =>
      simp only [List.length_cons, List.map_cons, List.sum_cons]
        at count warps threads registers sharedMemory
      rw [ReleasesExactly]
      split
      · refine
          ⟨by omega, by omega, by omega, by omega, by omega,
            inductionHypothesis ?_ ?_ ?_ ?_ ?_⟩
        all_goals
          simp only [releaseBlock]
          omega
      · exact
          inductionHypothesis (by omega) (by omega) (by omega) (by omega)
            (by omega)

/-- Counters that are the sums of the charges never underflow. -/
theorem Charged.releasesExactly
    {sm : SM σ}
    {blocks : List ResidentBlock}
    (charged : Charged sm blocks) :
    sm.ReleasesExactly blocks :=
  releasesExactly_of_covered charged.count.ge charged.warps.ge
    charged.threads.ge charged.registers.ge charged.sharedMemory.ge

/-- The finished blocks are resident and completed. -/
theorem mem_finishedBlocks
    {warps : List Warp}
    {blocks : List ResidentBlock}
    {block : ResidentBlock} :
    block ∈ finishedBlocks warps blocks ↔
      block ∈ blocks ∧ allCompleted warps block.blockId = true :=
  List.mem_filter

theorem mem_unfinishedBlocks
    {warps : List Warp}
    {blocks : List ResidentBlock}
    {block : ResidentBlock} :
    block ∈ unfinishedBlocks warps blocks ↔
      block ∈ blocks ∧ allCompleted warps block.blockId = false := by
  rw [unfinishedBlocks, List.mem_filter, Bool.not_eq_true']

/-- A block is unfinished when one of its warps is. -/
theorem allCompleted_eq_false
    {warps : List Warp}
    {blockId : Nat} :
    allCompleted warps blockId = false ↔
      ∃ warp ∈ warps,
        warp.blockId? = some blockId ∧ warp.state ≠ .completed := by
  rw [← Bool.not_eq_true, allCompleted, List.all_eq_true]
  simp [belongsTo]

/-- Filtering whole blocks out of their warps filters the blocks. -/
theorem flatMap_warps_filter
    {resident : List (ThreadBlock × KernelResourceRequirements)}
    {dropped : Nat → Bool}
    (wellFormed : ∀ admitted ∈ resident, admitted.1.WellFormed) :
    (resident.flatMap fun admitted => admitted.1.warps).filter
        (fun warp => !(warp.blockId?.any dropped)) =
      (resident.filter fun admitted =>
          !dropped admitted.1.blockId).flatMap
        fun admitted => admitted.1.warps := by
  induction resident with
  | nil =>
      rfl
  | cons admitted rest inductionHypothesis =>
      have restWellFormed :
          ∀ admitted ∈ rest, admitted.1.WellFormed :=
        fun other member =>
          wellFormed other (List.mem_cons_of_mem admitted member)
      have recognised :
          ∀ warp ∈ admitted.1.warps,
            (!(warp.blockId?.any dropped)) =
              !dropped admitted.1.blockId := by
        intro warp member
        have isMember :=
          (wellFormed admitted List.mem_cons_self).blockId? member
        rw [isMember, Option.any_some]
      rw [List.flatMap_cons, List.filter_append,
        inductionHypothesis restWellFormed,
        List.filter_congr recognised, List.filter_cons]
      cases isDropped : dropped admitted.1.blockId with
      | false =>
          simp
      | true =>
          simp

/-- The warps of a list whose block is dropped. -/
theorem map_identity_filter
    {first second : List Warp}
    (dropped : Nat → Bool)
    (same : first.map Warp.identity = second.map Warp.identity) :
    (first.filter fun warp => !(warp.blockId?.any dropped)).map
        Warp.identity =
      (second.filter fun warp => !(warp.blockId?.any dropped)).map
        Warp.identity := by
  induction first generalizing second with
  | nil =>
      cases second with
      | nil => rfl
      | cons warp rest => simp at same
  | cons warp rest inductionHypothesis =>
      cases second with
      | nil => simp at same
      | cons other others =>
          simp only [List.map_cons, List.cons.injEq] at same
          have sameBlock := Warp.blockId?_of_identity same.1
          have sameRest := inductionHypothesis same.2
          rw [List.filter_cons, List.filter_cons, sameBlock]
          split
          · rw [List.map_cons, List.map_cons, same.1, sameRest]
          · exact sameRest

/-- Every warp belongs to a resident block. -/
theorem Houses.block_of_warp
    {sm : SM σ}
    {resident : List (ThreadBlock × KernelResourceRequirements)}
    {warp : Warp}
    (houses : Houses sm resident)
    (member : warp ∈ sm.warps) :
    ∃ block ∈ sm.residentBlocks, warp.blockId? = some block.blockId := by
  have isIdentity :
      warp.identity ∈
        (resident.flatMap fun admitted => admitted.1.warps).map
          Warp.identity := by
    rw [← houses.warps]
    exact List.mem_map_of_mem member
  obtain ⟨origin, isOrigin, sameIdentity⟩ := List.mem_map.mp isIdentity
  obtain ⟨admitted, isAdmitted, ofBlock⟩ := List.mem_flatMap.mp isOrigin
  refine ⟨chargeOf admitted.1 admitted.2, ?_, ?_⟩
  · rw [houses.charges]
    exact List.mem_map_of_mem isAdmitted
  · rw [← Warp.blockId?_of_identity sameIdentity]
    exact (houses.wellFormed admitted isAdmitted).blockId? ofBlock

/-- Releasing drops the warps of completed blocks and no others. -/
theorem Houses.release_warps
    {sm : SM σ}
    {resident : List (ThreadBlock × KernelResourceRequirements)}
    (houses : Houses sm resident) :
    sm.releaseCompletedBlocks.warps =
      sm.warps.filter fun warp =>
        !(warp.blockId?.any (allCompleted sm.warps)) := by
  rw [releaseCompletedBlocks_eq]
  apply List.filter_congr
  intro warp member
  obtain ⟨block, isResident, ofBlock⟩ := houses.block_of_warp member
  congr 1
  rw [ofBlock, Option.any_some, Bool.eq_iff_iff, List.any_eq_true]
  constructor
  · rintro ⟨finished, isFinished, belongs⟩
    have sameId : block.blockId = finished.blockId := by
      simpa [belongsTo, ofBlock] using belongs
    rw [sameId]
    exact (mem_finishedBlocks.mp isFinished).2
  · intro completed
    refine ⟨block, mem_finishedBlocks.mpr ⟨isResident, completed⟩, ?_⟩
    simp [belongsTo, ofBlock]

/-- Releasing keeps the warp vector in step with the resident blocks. -/
theorem Houses.release
    {sm : SM σ}
    {resident : List (ThreadBlock × KernelResourceRequirements)}
    (houses : Houses sm resident) :
    Houses sm.releaseCompletedBlocks
      (resident.filter fun admitted =>
        !allCompleted sm.warps admitted.1.blockId) where
  charges := by
    rw [releaseCompletedBlocks_eq]
    simp only [unfinishedBlocks, houses.charges, List.filter_map]
    rfl
  warps := by
    rw [houses.release_warps,
      map_identity_filter (allCompleted sm.warps) houses.warps,
      flatMap_warps_filter houses.wellFormed]
  distinct := by
    rw [releaseCompletedBlocks_eq]
    exact
      houses.distinct.sublist
        (List.filter_sublist.map ResidentBlock.blockId)
  wellFormed := fun admitted member =>
    houses.wellFormed admitted (List.mem_of_mem_filter member)

/-- Admitting a fitting block of a new id keeps the warp vector in step. -/
theorem Houses.allocate
    {sm : SM σ}
    {resident : List (ThreadBlock × KernelResourceRequirements)}
    {block : ThreadBlock}
    {req : KernelResourceRequirements}
    (houses : Houses sm resident)
    (wellFormed : block.WellFormed)
    (fresh : block.blockId ∉ sm.residentBlocks.map ResidentBlock.blockId) :
    Houses (sm.allocateBlock block req) (resident ++ [(block, req)]) := by
  have admits := allocateBlock_admits sm block req
  refine ⟨?_, ?_, ?_, ?_⟩
  · rw [admits.residentBlocks, houses.charges]
    simp
  · rw [admits.warps, List.map_append, houses.warps]
    simp
  · rw [admits.residentBlocks, List.map_append]
    refine List.nodup_append.mpr ⟨houses.distinct, by simp, ?_⟩
    intro id isResident other isNew same
    rw [List.map_singleton, List.mem_singleton] at isNew
    rw [same, isNew] at isResident
    exact fresh isResident
  · intro admitted member
    rcases List.mem_append.mp member with old | new
    · exact houses.wellFormed admitted old
    · rw [List.mem_singleton.mp new]
      exact wellFormed

/-- A tick keeps the warp vector in step with the resident blocks. -/
theorem Houses.tick
    [WarpScheduler σ]
    {sm after : SM σ}
    {kernel : Kernel}
    {memory memory' : MemorySystem}
    {resident : List (ThreadBlock × KernelResourceRequirements)}
    (houses : Houses sm resident)
    (ran : sm.tick kernel memory = .ok (after, memory')) :
    Houses after resident := by
  obtain ⟨ledger, _, step⟩ := tick_ok ran
  refine
    ⟨ledger.residentBlocks.trans houses.charges,
      step.identities.trans houses.warps, ?_, houses.wellFormed⟩
  rw [ledger.residentBlocks]
  exact houses.distinct

/-- A vacant multiprocessor houses nothing. -/
theorem Vacant.houses
    {sm : SM σ}
    (vacant : sm.Vacant) :
    Houses sm [] :=
  ⟨vacant.residentBlocks, by rw [vacant.warps]; rfl,
    by rw [vacant.residentBlocks]; exact List.nodup_nil, by simp⟩

/-- A vacant multiprocessor is charged nothing. -/
theorem Vacant.charged
    {sm : SM σ}
    (vacant : sm.Vacant) :
    Charged sm sm.residentBlocks := by
  rw [vacant.residentBlocks]
  exact
    ⟨vacant.allocatedBlocks, vacant.allocatedWarps,
      vacant.allocatedThreads, vacant.allocatedRegisters,
      vacant.allocatedSharedMemory⟩

/-- Admission charges a block on every counter. -/
theorem Charged.allocate
    {sm : SM σ}
    (charged : Charged sm sm.residentBlocks)
    (block : ThreadBlock)
    (req : KernelResourceRequirements) :
    Charged (sm.allocateBlock block req)
      (sm.allocateBlock block req).residentBlocks := by
  have admits := allocateBlock_admits sm block req
  rw [admits.residentBlocks]
  refine ⟨?_, ?_, ?_, ?_, ?_⟩
  · rw [admits.allocatedBlocks, charged.count]
    simp
  · rw [admits.allocatedWarps, charged.warps]
    simp
  · rw [admits.allocatedThreads, charged.threads]
    simp
  · rw [admits.allocatedRegisters, charged.registers]
    simp
  · rw [admits.allocatedSharedMemory, charged.sharedMemory]
    simp

/-- A tick charges nothing. -/
theorem Charged.tick
    [WarpScheduler σ]
    {sm after : SM σ}
    {kernel : Kernel}
    {memory memory' : MemorySystem}
    (charged : Charged sm sm.residentBlocks)
    (ran : sm.tick kernel memory = .ok (after, memory')) :
    Charged after after.residentBlocks := by
  obtain ⟨ledger, _, _⟩ := tick_ok ran
  rw [ledger.residentBlocks]
  exact
    ⟨ledger.allocatedBlocks.trans charged.count,
      ledger.allocatedWarps.trans charged.warps,
      ledger.allocatedThreads.trans charged.threads,
      ledger.allocatedRegisters.trans charged.registers,
      ledger.allocatedSharedMemory.trans charged.sharedMemory⟩

/-- A block is admitted when it keeps every counter within its limit. -/
theorem canAdmit_iff
    {sm : SM σ}
    {block : ThreadBlock}
    {config : SystemConfig}
    {req : KernelResourceRequirements} :
    sm.canAdmit block config req = true ↔
      (sm.allocateBlock block req).WithinLimits config := by
  have admits := allocateBlock_admits sm block req
  simp only [canAdmit, Bool.and_eq_true, decide_eq_true_eq]
  constructor
  · rintro ⟨⟨⟨⟨blocks, warps⟩, threads⟩, registers⟩, sharedMemory⟩
    refine ⟨?_, ?_, ?_, ?_, ?_⟩
    · rwa [admits.allocatedBlocks]
    · rwa [admits.allocatedWarps]
    · rwa [admits.allocatedThreads]
    · rwa [admits.allocatedRegisters]
    · rwa [admits.allocatedSharedMemory]
  · rintro ⟨blocks, warps, threads, registers, sharedMemory⟩
    rw [admits.allocatedBlocks] at blocks
    rw [admits.allocatedWarps] at warps
    rw [admits.allocatedThreads] at threads
    rw [admits.allocatedRegisters] at registers
    rw [admits.allocatedSharedMemory] at sharedMemory
    exact ⟨⟨⟨⟨blocks, warps⟩, threads⟩, registers⟩, sharedMemory⟩

/-- A vacant multiprocessor is within any limits. -/
theorem Vacant.withinLimits
    {sm : SM σ}
    (vacant : sm.Vacant)
    (config : SystemConfig) :
    sm.WithinLimits config where
  blocks := vacant.allocatedBlocks.le.trans (Nat.zero_le _)
  warps := vacant.allocatedWarps.le.trans (Nat.zero_le _)
  threads := vacant.allocatedThreads.le.trans (Nat.zero_le _)
  registers := vacant.allocatedRegisters.le.trans (Nat.zero_le _)
  sharedMemory := vacant.allocatedSharedMemory.le.trans (Nat.zero_le _)

/-- After a release, every resident block has an unfinished warp. -/
theorem Houses.release_unfinished
    {sm : SM σ}
    {resident : List (ThreadBlock × KernelResourceRequirements)}
    (houses : Houses sm resident) :
    ∀ block ∈ sm.releaseCompletedBlocks.residentBlocks,
      ∃ warp ∈ sm.releaseCompletedBlocks.warps,
        warp.blockId? = some block.blockId ∧ warp.state ≠ .completed := by
  intro block isResident
  rw [releaseCompletedBlocks_eq] at isResident
  have unfinished := (mem_unfinishedBlocks.mp isResident).2
  obtain ⟨warp, member, ofBlock, running⟩ :=
    allCompleted_eq_false.mp unfinished
  refine ⟨warp, ?_, ofBlock, running⟩
  rw [houses.release_warps, List.mem_filter]
  refine ⟨member, ?_⟩
  rw [ofBlock, Option.any_some, unfinished]
  rfl

/-- A release keeps every block that has an unfinished warp. -/
theorem release_keeps_unfinished
    (sm : SM σ) :
    ∀ block ∈ sm.residentBlocks,
      (∃ warp ∈ sm.warps,
        warp.blockId? = some block.blockId ∧ warp.state ≠ .completed) →
      block ∈ sm.releaseCompletedBlocks.residentBlocks := by
  intro block isResident unfinished
  rw [releaseCompletedBlocks_eq]
  exact
    mem_unfinishedBlocks.mpr
      ⟨isResident, allCompleted_eq_false.mpr unfinished⟩

/-! ## Sequences of operations -/

/--
The multiprocessors that clearing, guarded admission, ticks and releases reach
under one configuration, with the blocks admitted since the last clearing.
-/
inductive Operated [WarpScheduler σ] (config : SystemConfig) :
    SM σ → List (ThreadBlock × KernelResourceRequirements) → Prop where
  | start
      {sm : SM σ}
      (vacant : sm.Vacant) :
      Operated config sm []
  | clear
      {sm : SM σ}
      {history : List (ThreadBlock × KernelResourceRequirements)}
      (earlier : Operated config sm history) :
      Operated config sm.clearWarps []
  | allocate
      {sm : SM σ}
      {history : List (ThreadBlock × KernelResourceRequirements)}
      {block : ThreadBlock}
      {req : KernelResourceRequirements}
      (earlier : Operated config sm history)
      (wellFormed : block.WellFormed)
      (fresh :
        block.blockId ∉ sm.residentBlocks.map ResidentBlock.blockId)
      (fits : sm.canAdmit block config req = true) :
      Operated config (sm.allocateBlock block req)
        (history ++ [(block, req)])
  | tick
      {sm after : SM σ}
      {history : List (ThreadBlock × KernelResourceRequirements)}
      {kernel : Kernel}
      {memory memory' : MemorySystem}
      (earlier : Operated config sm history)
      (ran : sm.tick kernel memory = .ok (after, memory')) :
      Operated config after history
  | release
      {sm : SM σ}
      {history : List (ThreadBlock × KernelResourceRequirements)}
      (earlier : Operated config sm history) :
      Operated config sm.releaseCompletedBlocks history

section Operations

variable [WarpScheduler σ]
variable {config : SystemConfig}
variable {sm : SM σ}
variable {history : List (ThreadBlock × KernelResourceRequirements)}

/-- The counters are the sums of the resident charges. -/
theorem Operated.charged
    (run : Operated config sm history) :
    Charged sm sm.residentBlocks := by
  induction run with
  | start vacant =>
      exact vacant.charged
  | clear _ _ =>
      exact (clearWarps_vacant _).charged
  | allocate _ _ _ _ inductionHypothesis =>
      exact inductionHypothesis.allocate _ _
  | tick _ ran inductionHypothesis =>
      exact inductionHypothesis.tick ran
  | release _ inductionHypothesis =>
      exact inductionHypothesis.release

/-- The counters stay within the limits. -/
theorem Operated.withinLimits
    (run : Operated config sm history) :
    sm.WithinLimits config := by
  induction run with
  | start vacant =>
      exact vacant.withinLimits config
  | clear _ _ =>
      exact (clearWarps_vacant _).withinLimits config
  | allocate _ _ _ fits _ =>
      exact canAdmit_iff.mp fits
  | tick _ ran inductionHypothesis =>
      obtain ⟨ledger, _, _⟩ := tick_ok ran
      exact
        ⟨ledger.allocatedBlocks.le.trans inductionHypothesis.blocks,
          ledger.allocatedWarps.le.trans inductionHypothesis.warps,
          ledger.allocatedThreads.le.trans inductionHypothesis.threads,
          ledger.allocatedRegisters.le.trans inductionHypothesis.registers,
          ledger.allocatedSharedMemory.le.trans
            inductionHypothesis.sharedMemory⟩
  | release _ inductionHypothesis =>
      rw [releaseCompletedBlocks_eq]
      exact
        ⟨(Nat.sub_le _ _).trans inductionHypothesis.blocks,
          (Nat.sub_le _ _).trans inductionHypothesis.warps,
          (Nat.sub_le _ _).trans inductionHypothesis.threads,
          (Nat.sub_le _ _).trans inductionHypothesis.registers,
          (Nat.sub_le _ _).trans inductionHypothesis.sharedMemory⟩

/-- The warp vector holds the warps of some of the admitted blocks. -/
theorem Operated.houses
    (run : Operated config sm history) :
    ∃ resident, resident.Sublist history ∧ Houses sm resident := by
  induction run with
  | start vacant =>
      exact ⟨[], List.Sublist.slnil, vacant.houses⟩
  | clear _ _ =>
      exact ⟨[], List.Sublist.slnil, (clearWarps_vacant _).houses⟩
  | allocate _ wellFormed fresh _ inductionHypothesis =>
      obtain ⟨resident, isSublist, houses⟩ := inductionHypothesis
      exact
        ⟨_, isSublist.append (List.Sublist.refl _),
          houses.allocate wellFormed fresh⟩
  | tick _ ran inductionHypothesis =>
      obtain ⟨resident, isSublist, houses⟩ := inductionHypothesis
      exact ⟨resident, isSublist, houses.tick ran⟩
  | release _ inductionHypothesis =>
      obtain ⟨resident, isSublist, houses⟩ := inductionHypothesis
      exact ⟨_, List.filter_sublist.trans isSublist, houses.release⟩

/--
After every sequence of operations the counters are the sums of the resident
charges and within the limits, no release underflows, the warp vector holds
exactly the warps of the resident blocks, and a release keeps exactly the
blocks with an unfinished warp.
-/
theorem operated_in_step
    (run : Operated config sm history) :
    (Charged sm sm.residentBlocks ∧ sm.WithinLimits config) ∧
      sm.ReleasesExactly sm.residentBlocks ∧
      (∃ resident, resident.Sublist history ∧ Houses sm resident) ∧
      (∀ block ∈ sm.releaseCompletedBlocks.residentBlocks,
        ∃ warp ∈ sm.releaseCompletedBlocks.warps,
          warp.blockId? = some block.blockId ∧ warp.state ≠ .completed) ∧
      ∀ block ∈ sm.residentBlocks,
        (∃ warp ∈ sm.warps,
          warp.blockId? = some block.blockId ∧ warp.state ≠ .completed) →
        block ∈ sm.releaseCompletedBlocks.residentBlocks := by
  obtain ⟨resident, isSublist, houses⟩ := run.houses
  exact
    ⟨⟨run.charged, run.withinLimits⟩, run.charged.releasesExactly,
      ⟨resident, isSublist, houses⟩, houses.release_unfinished,
      sm.release_keeps_unfinished⟩

end Operations

/-- A block that completes is released; a larger one that has not stays. -/
theorem operated_in_step_two_blocks :
    ∃ sm : SM Scheduler,
      sm.residentBlocks.map ResidentBlock.blockId = [5] ∧
        sm.allocatedThreads = 2 ∧ Charged sm sm.residentBlocks := by
  let config : SystemConfig :=
    { numSms := 1, warpSize := 32, blockSize := 32
      maxThreadsPerSm := 4, maxBlocksPerSm := 2
      maxSharedMemoryPerSm := 100, maxRegistersPerSm := 100 }
  have start : Operated config (vacantWith Scheduler.greedy) [] :=
    .start (vacantWith_vacant _)
  have first :
      Operated config
        ((vacantWith Scheduler.greedy).allocateBlock
          (.narrow 4 1) ⟨8, 10⟩) _ :=
    start.allocate (ThreadBlock.narrow_wellFormed 4 1)
      (by decide) (by decide)
  have second :
      Operated config
        (((vacantWith Scheduler.greedy).allocateBlock
          (.narrow 4 1) ⟨8, 10⟩).allocateBlock (.narrow 5 2) ⟨16, 0⟩) _ :=
    first.allocate (ThreadBlock.narrow_wellFormed 5 2)
      (by decide) (by decide)
  have ticked :=
    @Operated.tick _ _ config _ _ _ ⟨[], by decide⟩ (.minimal 1) _ second rfl
  exact ⟨_, rfl, rfl, (operated_in_step ticked.release).1.1⟩

end SM

end SimSm
