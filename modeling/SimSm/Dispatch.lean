import Mathlib.Data.List.Perm.Basic
import SimSm.Faults
import SimSm.Residency

namespace SimSm

/-!
# Every block is dispatched once and run to its end

The exit test of the run loop never looks at the dispatch pointer.  That no
block is left behind follows from the interplay of release, admission and the
completion test: a multiprocessor whose resident blocks are all completed has
released them, and an empty one either admits the next block or throws.
-/

open Outcome

/-- A call of `allocate_block`, or the release of a block with its warps. -/
inductive DispatchEvent where
  | allocate (smId : Nat) (block : ThreadBlock)
  | release (smId blockId : Nat) (warps : List Warp)

/-- The warps of one block on a multiprocessor. -/
def SM.blockWarps
    {σ : Type}
    (sm : SM σ)
    (blockId : Nat) :
    List Warp :=
  sm.warps.filter fun warp => SM.belongsTo warp blockId

/-- What one call of `release_completed_blocks` releases, in order. -/
def SM.releaseEvents
    {σ : Type}
    (smId : Nat)
    (sm : SM σ) :
    List ResidentBlock → List DispatchEvent
  | [] => []
  | block :: rest =>
      if SM.allCompleted sm.warps block.blockId then
        .release smId block.blockId (sm.blockWarps block.blockId) ::
          releaseEvents smId (sm.releaseBlock block) rest
      else
        releaseEvents smId sm rest

namespace GPU

variable {σ : Type}

/-- The blocks that `dispatch` passes to `allocate_block`, in order. -/
def dispatchEvents
    (config : SystemConfig)
    (req : KernelResourceRequirements)
    (smId : Nat)
    (sm : SM σ) :
    List ThreadBlock → List DispatchEvent
  | [] => []
  | block :: rest =>
      if sm.canAdmit block config req then
        .allocate smId block ::
          dispatchEvents config req smId (sm.allocateBlock block req) rest
      else
        []

/--
The events of `dispatchAll`, from the multiprocessor of number `smId` on and up
to the exception if there is one.
-/
def dispatchAllEvents
    (config : SystemConfig)
    (req : KernelResourceRequirements)
    (prepare : SM σ → SM σ)
    (prepareEvents : Nat → SM σ → List DispatchEvent) :
    Nat → List (SM σ) → List ThreadBlock → List DispatchEvent
  | _, [], _ => []
  | smId, sm :: rest, pending =>
      prepareEvents smId sm ++
        (dispatchEvents config req smId (prepare sm) pending ++
          match dispatch config req (prepare sm) pending with
          | .error _ => []
          | .ok (_, pending) =>
              dispatchAllEvents config req prepare prepareEvents (smId + 1)
                rest pending)

/-- The events of a launch. -/
def launchEvents
    (gpu : GPU σ)
    (grid : Grid)
    (config : SystemConfig)
    (req : KernelResourceRequirements) :
    List DispatchEvent :=
  dispatchAllEvents config req SM.clearWarps (fun _ _ => []) 0 gpu.sms
    grid.blocks

/-- The events of the first phase of an iteration. -/
def refillEvents (gpu : GPU σ) : List DispatchEvent :=
  dispatchAllEvents gpu.config gpu.req SM.releaseCompletedBlocks
    (fun smId sm => sm.releaseEvents smId sm.residentBlocks) 0 gpu.sms
    gpu.remaining

/-- The events of the run loop. -/
def runEvents [WarpScheduler σ]
    (kernel : Kernel) :
    Nat → GPU σ → List DispatchEvent
  | 0, _ => []
  | fuel + 1, gpu =>
      gpu.refillEvents ++
        match gpu.iterate kernel with
        | .ok (false, gpu) => runEvents kernel fuel gpu
        | _ => []

end GPU

namespace DispatchEvent

/-- The allocation of an event. -/
def allocation? : DispatchEvent → Option (Nat × ThreadBlock)
  | .allocate smId block => some (smId, block)
  | .release _ _ _ => none

/-- The release of an event. -/
def release? : DispatchEvent → Option (Nat × Nat × List Warp)
  | .allocate _ _ => none
  | .release smId blockId warps => some (smId, blockId, warps)

/-- The allocations of a history, with the number of the multiprocessor. -/
def allocations (events : List DispatchEvent) : List (Nat × ThreadBlock) :=
  events.filterMap allocation?

/-- The releases of a history, with the number of the multiprocessor. -/
def releases (events : List DispatchEvent) : List (Nat × Nat × List Warp) :=
  events.filterMap release?

/-- The blocks of a history in the order of their allocation. -/
def dispatched (events : List DispatchEvent) : List ThreadBlock :=
  (allocations events).map Prod.snd

/-- The ids of the blocks that one multiprocessor has allocated. -/
def allocatedOn (smId : Nat) (events : List DispatchEvent) : List Nat :=
  ((allocations events).filter fun event => event.1 == smId).map
    fun event => event.2.blockId

/-- The ids of the blocks that one multiprocessor has released. -/
def releasedOn (smId : Nat) (events : List DispatchEvent) : List Nat :=
  ((releases events).filter fun event => event.1 == smId).map
    fun event => event.2.1

section Projections

variable (earlier later : List DispatchEvent)
variable (smId : Nat)

@[simp] theorem allocations_append :
    allocations (earlier ++ later) =
      allocations earlier ++ allocations later :=
  List.filterMap_append

@[simp] theorem releases_append :
    releases (earlier ++ later) = releases earlier ++ releases later :=
  List.filterMap_append

@[simp] theorem dispatched_append :
    dispatched (earlier ++ later) =
      dispatched earlier ++ dispatched later := by
  simp [dispatched]

@[simp] theorem allocatedOn_append :
    allocatedOn smId (earlier ++ later) =
      allocatedOn smId earlier ++ allocatedOn smId later := by
  simp [allocatedOn]

@[simp] theorem releasedOn_append :
    releasedOn smId (earlier ++ later) =
      releasedOn smId earlier ++ releasedOn smId later := by
  simp [releasedOn]

end Projections

end DispatchEvent

namespace SM

variable {σ : Type}

/-! ## The warps of a block -/

/-- The warps of a resident block are the ones it was admitted with. -/
theorem Houses.blockWarps_identity
    {sm : SM σ}
    {resident : List (ThreadBlock × KernelResourceRequirements)}
    {admitted : ThreadBlock × KernelResourceRequirements}
    (houses : Houses sm resident)
    (isResident : admitted ∈ resident) :
    (sm.blockWarps admitted.1.blockId).map Warp.identity =
      admitted.1.warps.map Warp.identity := by
  let dropped := fun blockId => blockId != admitted.1.blockId
  have recognised
      {warp : Warp}
      {blockId : Nat}
      (ofBlock : warp.blockId? = some blockId) :
      belongsTo warp admitted.1.blockId =
        !(warp.blockId?.any dropped) := by
    rw [belongsTo, ofBlock, Option.any_some, Bool.eq_iff_iff]
    simp [dropped]
  have ofWarps :
      sm.blockWarps admitted.1.blockId =
        sm.warps.filter fun warp => !(warp.blockId?.any dropped) := by
    apply List.filter_congr
    intro warp member
    obtain ⟨block, _, ofBlock⟩ := houses.block_of_warp member
    exact recognised ofBlock
  have distinct :
      (resident.map fun admitted => admitted.1.blockId).Nodup := by
    have ids := houses.distinct
    rw [houses.charges, List.map_map] at ids
    exact ids
  have alone :
      (resident.filter fun other => !dropped other.1.blockId) =
        [admitted] := by
    clear houses ofWarps
    induction resident with
    | nil => cases isResident
    | cons other rest inductionHypothesis =>
        rw [List.map_cons, List.nodup_cons] at distinct
        rw [List.filter_cons]
        rcases List.mem_cons.mp isResident with rfl | inRest
        · rw [if_pos (by simp [dropped])]
          congr 1
          rw [List.filter_eq_nil_iff]
          intro another isAnother
          simp only [dropped, Bool.not_eq_true', bne_eq_false_iff_eq]
          intro same
          apply distinct.1
          rw [← same]
          exact
            List.mem_map_of_mem (f := fun admitted => admitted.1.blockId)
              isAnother
        · rw [if_neg, inductionHypothesis inRest distinct.2]
          simp only [dropped, Bool.not_eq_true', bne_eq_false_iff_eq]
          intro same
          apply distinct.1
          rw [same]
          exact
            List.mem_map_of_mem (f := fun admitted => admitted.1.blockId)
              inRest
  rw [ofWarps, map_identity_filter dropped houses.warps,
    flatMap_warps_filter houses.wellFormed, alone]
  simp

/-- Dropping the warps of another block leaves those of a block. -/
theorem releaseBlock_blockWarps
    {sm : SM σ}
    {block : ResidentBlock}
    {blockId : Nat}
    (other : blockId ≠ block.blockId) :
    (sm.releaseBlock block).blockWarps blockId = sm.blockWarps blockId := by
  simp only [blockWarps, releaseBlock, List.filter_filter]
  apply List.filter_congr
  intro warp _
  cases belongs : belongsTo warp blockId with
  | false => rfl
  | true =>
      simp only [belongsTo, beq_iff_eq] at belongs
      simp [belongsTo, belongs, other]

/-- A release releases the finished blocks, each with all its warps. -/
theorem releases_releaseEvents
    {smId : Nat}
    {sm : SM σ}
    {blocks : List ResidentBlock}
    (distinct : (blocks.map ResidentBlock.blockId).Nodup) :
    DispatchEvent.releases (sm.releaseEvents smId blocks) =
      (finishedBlocks sm.warps blocks).map fun block =>
        (smId, block.blockId, sm.blockWarps block.blockId) := by
  induction blocks generalizing sm with
  | nil => rfl
  | cons block rest inductionHypothesis =>
      rw [List.map_cons, List.nodup_cons] at distinct
      rw [releaseEvents]
      cases completed : allCompleted sm.warps block.blockId with
      | false =>
          rw [if_neg Bool.false_ne_true, inductionHypothesis distinct.2]
          simp [finishedBlocks, completed]
      | true =>
          have sameFinished :
              finishedBlocks (sm.releaseBlock block).warps rest =
                finishedBlocks sm.warps rest := by
            simp only [finishedBlocks, releaseBlock,
              allCompleted_filter completed]
          rw [if_pos rfl]
          have tail :=
            @inductionHypothesis (sm.releaseBlock block) distinct.2
          rw [sameFinished] at tail
          simp only [DispatchEvent.releases, DispatchEvent.release?,
            List.filterMap_cons, finishedBlocks, List.filter_cons,
            completed, if_true, List.map_cons] at tail ⊢
          rw [tail]
          congr 1
          apply List.map_congr_left
          intro other isOther
          rw [releaseBlock_blockWarps]
          intro same
          apply distinct.1
          rw [← same]
          exact List.mem_map_of_mem (List.mem_of_mem_filter isOther)

/-- A release allocates nothing. -/
theorem allocations_releaseEvents
    {smId : Nat}
    {sm : SM σ}
    {blocks : List ResidentBlock} :
    DispatchEvent.allocations (sm.releaseEvents smId blocks) = [] := by
  induction blocks generalizing sm with
  | nil => rfl
  | cons block rest inductionHypothesis =>
      rw [releaseEvents]
      split
      · exact inductionHypothesis
      · exact inductionHypothesis

/-! ## Empty multiprocessors -/

/-- Whether a block fits a completely empty multiprocessor. -/
def fitsEmpty
    (block : ThreadBlock)
    (config : SystemConfig)
    (req : KernelResourceRequirements) :
    Bool :=
  let charge := chargeOf block req
  decide (1 ≤ config.maxBlocksPerSm) &&
    decide (charge.numWarps ≤ config.maxWarpsPerSm) &&
    decide (charge.numThreads ≤ config.maxThreadsPerSm) &&
    decide (charge.allocatedRegisters ≤ config.maxRegistersPerSm) &&
    decide (charge.allocatedSharedMemory ≤ config.maxSharedMemoryPerSm)

/-- A vacant multiprocessor admits exactly what fits an empty one. -/
theorem Vacant.canAdmit
    {sm : SM σ}
    (vacant : sm.Vacant)
    (block : ThreadBlock)
    (config : SystemConfig)
    (req : KernelResourceRequirements) :
    sm.canAdmit block config req = fitsEmpty block config req := by
  simp only [SM.canAdmit, fitsEmpty, vacant.allocatedBlocks,
    vacant.allocatedWarps, vacant.allocatedThreads,
    vacant.allocatedRegisters, vacant.allocatedSharedMemory, Nat.zero_add]

/-- What any multiprocessor admits fits an empty one. -/
theorem fitsEmpty_of_canAdmit
    {sm : SM σ}
    {block : ThreadBlock}
    {config : SystemConfig}
    {req : KernelResourceRequirements}
    (admitted : sm.canAdmit block config req = true) :
    fitsEmpty block config req = true := by
  simp only [SM.canAdmit, fitsEmpty, Bool.and_eq_true, decide_eq_true_eq]
    at admitted ⊢
  omega

/-- A multiprocessor to which no block is charged houses nothing. -/
theorem Houses.vacant
    {sm : SM σ}
    {resident : List (ThreadBlock × KernelResourceRequirements)}
    (houses : Houses sm resident)
    (charged : Charged sm sm.residentBlocks)
    (none : sm.allocatedBlocks = 0) :
    sm.Vacant := by
  have noBlocks : sm.residentBlocks = [] := by
    rw [← List.length_eq_zero_iff, ← charged.count, none]
  have noResident : resident = [] := by
    rw [← List.map_eq_nil_iff, ← houses.charges, noBlocks]
  have noWarps : sm.warps = [] := by
    rw [← List.map_eq_nil_iff, houses.warps, noResident]
    rfl
  rw [noBlocks] at charged
  exact
    ⟨noWarps, noBlocks, none, charged.warps, charged.threads,
      charged.registers, charged.sharedMemory⟩

end SM

/-! ## One multiprocessor -/

/-- A grid of distinct well-formed blocks that have warps. -/
structure Grid.WellFormed (grid : Grid) : Prop where
  distinct : (grid.blocks.map ThreadBlock.blockId).Nodup
  blocks :
    ∀ block ∈ grid.blocks, block.warps ≠ [] ∧ block.WellFormed

/-- No warp of the grid is completed before it is launched. -/
def Grid.Unstarted (grid : Grid) : Prop :=
  ∀ block ∈ grid.blocks, ∀ warp ∈ block.warps, warp.state ≠ .completed

/-- Every resident block has a warp that is not completed. -/
def SM.Live {σ : Type} (sm : SM σ) : Prop :=
  ∀ block ∈ sm.residentBlocks,
    ∃ warp ∈ sm.warps,
      warp.blockId? = some block.blockId ∧ warp.state ≠ .completed

/-- A release of all warps of a block of the grid, each of them completed. -/
def DispatchEvent.Finished
    (grid : Grid)
    (event : Nat × Nat × List Warp) :
    Prop :=
  ∃ block ∈ grid.blocks,
    block.blockId = event.2.1 ∧
      event.2.2.map Warp.identity = block.warps.map Warp.identity ∧
      ∀ warp ∈ event.2.2, warp.state = .completed

section Dispatching

open DispatchEvent

variable {σ : Type}
variable {grid : Grid}
variable {req : KernelResourceRequirements}

/--
A multiprocessor holds what it has allocated and not released, of a grid and
under one set of requirements.
-/
structure SM.Tracked
    (grid : Grid)
    (req : KernelResourceRequirements)
    (smId : Nat)
    (events : List DispatchEvent)
    (sm : SM σ) :
    Prop where
  charged : SM.Charged sm sm.residentBlocks
  houses :
    ∃ resident : List ThreadBlock,
      (∀ block ∈ resident, block ∈ grid.blocks) ∧
        SM.Houses sm (resident.map fun block => (block, req))
  ledger :
    (allocatedOn smId events).Perm
      (releasedOn smId events ++
        sm.residentBlocks.map ResidentBlock.blockId)

namespace SM.Tracked

variable {smId : Nat}
variable {events : List DispatchEvent}
variable {sm : SM σ}

/-- Only its own events matter to a multiprocessor. -/
theorem congr
    {others : List DispatchEvent}
    (tracked : sm.Tracked grid req smId events)
    (allocated : allocatedOn smId others = allocatedOn smId events)
    (released : releasedOn smId others = releasedOn smId events) :
    sm.Tracked grid req smId others :=
  ⟨tracked.charged, tracked.houses, by
    rw [allocated, released]
    exact tracked.ledger⟩

/-- A vacant multiprocessor without events holds nothing. -/
theorem ofVacant
    (vacant : sm.Vacant)
    (allocated : allocatedOn smId events = [])
    (released : releasedOn smId events = []) :
    sm.Tracked grid req smId events where
  charged := vacant.charged
  houses := ⟨[], by simp, vacant.houses⟩
  ledger := by
    rw [allocated, released, vacant.residentBlocks]
    exact .nil

/-- A resident block has been allocated here. -/
theorem allocated
    (tracked : sm.Tracked grid req smId events)
    {blockId : Nat}
    (isResident : blockId ∈ sm.residentBlocks.map ResidentBlock.blockId) :
    blockId ∈ (dispatched events).map ThreadBlock.blockId := by
  have isAllocated :=
    tracked.ledger.mem_iff.mpr (List.mem_append_right _ isResident)
  obtain ⟨event, member, rfl⟩ := List.mem_map.mp isAllocated
  exact
    List.mem_map_of_mem
      (List.mem_map_of_mem (List.mem_of_mem_filter member))

/-- Allocating a new block of the grid. -/
theorem allocate
    (tracked : sm.Tracked grid req smId events)
    (wellFormed : grid.WellFormed)
    {block : ThreadBlock}
    (member : block ∈ grid.blocks)
    (fresh :
      block.blockId ∉ (dispatched events).map ThreadBlock.blockId) :
    (sm.allocateBlock block req).Tracked grid req smId
      (events ++ [.allocate smId block]) := by
  obtain ⟨resident, ofGrid, houses⟩ := tracked.houses
  have admits := SM.allocateBlock_admits sm block req
  refine ⟨tracked.charged.allocate block req, ⟨resident ++ [block], ?_, ?_⟩, ?_⟩
  · intro other isResident
    rcases List.mem_append.mp isResident with old | new
    · exact ofGrid other old
    · rw [List.mem_singleton.mp new]
      exact member
  · rw [List.map_append]
    exact
      houses.allocate (wellFormed.blocks block member).2 fun isResident =>
        fresh (tracked.allocated isResident)
  · have ofEvent :
        allocatedOn smId [.allocate smId block] = [block.blockId] := by
      simp [allocatedOn, allocations, allocation?]
    have noRelease : releasedOn smId [.allocate smId block] = [] := rfl
    rw [allocatedOn_append, releasedOn_append, admits.residentBlocks,
      List.map_append, ofEvent, noRelease, List.append_nil,
      ← List.append_assoc]
    exact tracked.ledger.append_right [block.blockId]

/-- A finished block of the multiprocessor has all its warps completed. -/
theorem finished
    (tracked : sm.Tracked grid req smId events)
    {block : ResidentBlock}
    (isFinished :
      block ∈ SM.finishedBlocks sm.warps sm.residentBlocks) :
    Finished grid
      (smId, block.blockId, sm.blockWarps block.blockId) := by
  obtain ⟨resident, ofGrid, houses⟩ := tracked.houses
  obtain ⟨isResident, completed⟩ := SM.mem_finishedBlocks.mp isFinished
  rw [houses.charges, List.map_map] at isResident
  obtain ⟨admitted, isAdmitted, rfl⟩ := List.mem_map.mp isResident
  refine
    ⟨admitted, ofGrid admitted isAdmitted, rfl,
      houses.blockWarps_identity (List.mem_map_of_mem isAdmitted), ?_⟩
  intro warp member
  obtain ⟨ofSm, belongs⟩ := List.mem_filter.mp member
  rw [SM.allCompleted, List.all_eq_true] at completed
  have stopped := completed warp ofSm
  change SM.belongsTo warp admitted.blockId = true at belongs
  change (!SM.belongsTo warp admitted.blockId || _) = true at stopped
  rw [belongs] at stopped
  simpa using stopped

/-- Releasing the completed blocks. -/
theorem release
    (tracked : sm.Tracked grid req smId events) :
    sm.releaseCompletedBlocks.Tracked grid req smId
      (events ++ sm.releaseEvents smId sm.residentBlocks) := by
  obtain ⟨resident, ofGrid, houses⟩ := tracked.houses
  let unfinished :=
    resident.filter fun block => !SM.allCompleted sm.warps block.blockId
  refine ⟨tracked.charged.release, ⟨unfinished, ?_, ?_⟩, ?_⟩
  · exact fun block member => ofGrid block (List.mem_of_mem_filter member)
  · have released := houses.release
    rw [List.filter_map] at released
    exact released
  · have noAllocation :
        allocatedOn smId (sm.releaseEvents smId sm.residentBlocks) =
          [] := by
      rw [allocatedOn, SM.allocations_releaseEvents]
      rfl
    have released :
        releasedOn smId (sm.releaseEvents smId sm.residentBlocks) =
          (SM.finishedBlocks sm.warps sm.residentBlocks).map
            ResidentBlock.blockId := by
      rw [releasedOn, SM.releases_releaseEvents houses.distinct,
        List.filter_map, List.map_map, List.filter_eq_self.mpr]
      · rfl
      · intro _ _
        simp
    have split :
        (sm.residentBlocks.map ResidentBlock.blockId).Perm
          ((SM.finishedBlocks sm.warps sm.residentBlocks).map
              ResidentBlock.blockId ++
            (SM.unfinishedBlocks sm.warps sm.residentBlocks).map
              ResidentBlock.blockId) := by
      rw [← List.map_append]
      exact
        (List.filter_append_perm
          (fun block : ResidentBlock =>
            SM.allCompleted sm.warps block.blockId)
          sm.residentBlocks).symm.map ResidentBlock.blockId
    rw [allocatedOn_append, releasedOn_append, noAllocation, released,
      List.append_nil, SM.releaseCompletedBlocks_eq, List.append_assoc]
    exact tracked.ledger.trans (split.append_left _)

/-- A tick allocates and releases nothing. -/
theorem tick
    [WarpScheduler σ]
    {after : SM σ}
    {kernel : Kernel}
    {memory memory' : MemorySystem}
    (tracked : sm.Tracked grid req smId events)
    (ran : sm.tick kernel memory = .ok (after, memory')) :
    after.Tracked grid req smId events := by
  obtain ⟨resident, ofGrid, houses⟩ := tracked.houses
  obtain ⟨ledger, _, _⟩ := SM.tick_ok ran
  refine
    ⟨tracked.charged.tick ran, ⟨resident, ofGrid, houses.tick ran⟩, ?_⟩
  rw [ledger.residentBlocks]
  exact tracked.ledger

/-- The memories of a multiprocessor do not matter. -/
theorem withMemory
    (tracked : sm.Tracked grid req smId events)
    (sharedMemory : SharedMemory)
    (l1Cache : Cache) :
    ({ sm with sharedMemory := sharedMemory, l1Cache := l1Cache } :
      SM σ).Tracked grid req smId events := by
  obtain ⟨resident, ofGrid, houses⟩ := tracked.houses
  have charged := tracked.charged
  exact
    ⟨⟨charged.count, charged.warps, charged.threads, charged.registers,
        charged.sharedMemory⟩,
      ⟨resident, ofGrid, houses.charges, houses.warps, houses.distinct,
        houses.wellFormed⟩,
      tracked.ledger⟩

end SM.Tracked

namespace GPU

variable {config : SystemConfig}
variable {smId : Nat}
variable {events : List DispatchEvent}

/-! ## Dispatch to one multiprocessor -/

/-- A dispatch allocates blocks that fit, on its own multiprocessor. -/
theorem allocations_dispatchEvents
    {sm : SM σ}
    {pending : List ThreadBlock} :
    ∀ event ∈ allocations (dispatchEvents config req smId sm pending),
      event.1 = smId ∧ SM.fitsEmpty event.2 config req = true := by
  induction pending generalizing sm with
  | nil => exact nofun
  | cons block rest inductionHypothesis =>
      rw [dispatchEvents]
      split
      · rename_i admitted
        intro event member
        rcases List.mem_cons.mp member with rfl | inRest
        · exact ⟨rfl, SM.fitsEmpty_of_canAdmit admitted⟩
        · exact inductionHypothesis event inRest
      · exact nofun

/-- A dispatch releases nothing. -/
theorem releases_dispatchEvents
    {sm : SM σ}
    {pending : List ThreadBlock} :
    releases (dispatchEvents config req smId sm pending) = [] := by
  induction pending generalizing sm with
  | nil => rfl
  | cons block rest inductionHypothesis =>
      rw [dispatchEvents]
      split
      · exact inductionHypothesis
      · rfl

/-- A block that is still to be dispatched has not been allocated. -/
theorem fresh_of_order
    (wellFormed : grid.WellFormed)
    {block : ThreadBlock}
    {rest : List ThreadBlock}
    (order : dispatched events ++ block :: rest = grid.blocks) :
    block.blockId ∉ (dispatched events).map ThreadBlock.blockId := by
  have distinct := wellFormed.distinct
  rw [← order, List.map_append, List.nodup_append] at distinct
  intro allocated
  exact distinct.2.2 _ allocated _ (List.mem_cons_self ..) rfl

/-- What a dispatch does to its multiprocessor and to the pending blocks. -/
theorem dispatch_ok
    (wellFormed : grid.WellFormed)
    {sm after : SM σ}
    {pending rest : List ThreadBlock}
    (order : dispatched events ++ pending = grid.blocks)
    (tracked : sm.Tracked grid req smId events)
    (ran : dispatch config req sm pending = .ok (after, rest)) :
    after.Tracked grid req smId
        (events ++ dispatchEvents config req smId sm pending) ∧
      dispatched (events ++ dispatchEvents config req smId sm pending) ++
          rest =
        grid.blocks ∧
      (rest = [] ∨ after.allocatedBlocks ≠ 0) := by
  induction pending generalizing sm events with
  | nil =>
      cases ran
      rw [dispatchEvents, List.append_nil]
      exact ⟨tracked, order, Or.inl rfl⟩
  | cons block blocks inductionHypothesis =>
      rw [dispatch] at ran
      rw [dispatchEvents]
      cases admitted : sm.canAdmit block config req with
      | true =>
          rw [if_pos admitted] at ran
          rw [if_pos rfl, List.append_cons]
          have member : block ∈ grid.blocks := by
            rw [← order]
            exact List.mem_append_right _ (List.mem_cons_self ..)
          refine
            inductionHypothesis ?_
              (tracked.allocate wellFormed member
                (fresh_of_order wellFormed order))
              ran
          rw [dispatched_append, List.append_assoc]
          exact order
      | false =>
          rw [admitted, if_neg Bool.false_ne_true] at ran
          rw [if_neg Bool.false_ne_true, List.append_nil]
          split at ran
          · cases ran
          · rename_i occupied
            cases ran
            exact ⟨tracked, order, Or.inr occupied⟩

/-- A dispatch throws at a block that does not fit an empty multiprocessor. -/
theorem dispatch_error
    (wellFormed : grid.WellFormed)
    {sm : SM σ}
    {pending : List ThreadBlock}
    {error : SimError}
    (order : dispatched events ++ pending = grid.blocks)
    (tracked : sm.Tracked grid req smId events)
    (ran : dispatch config req sm pending = .error error) :
    ∃ block rest,
      dispatched (events ++ dispatchEvents config req smId sm pending) ++
          block :: rest =
        grid.blocks ∧
      SM.fitsEmpty block config req = false := by
  induction pending generalizing sm events with
  | nil => cases ran
  | cons block blocks inductionHypothesis =>
      rw [dispatch] at ran
      rw [dispatchEvents]
      cases admitted : sm.canAdmit block config req with
      | true =>
          rw [if_pos admitted] at ran
          rw [if_pos rfl, List.append_cons]
          have member : block ∈ grid.blocks := by
            rw [← order]
            exact List.mem_append_right _ (List.mem_cons_self ..)
          refine
            inductionHypothesis ?_
              (tracked.allocate wellFormed member
                (fresh_of_order wellFormed order))
              ran
          rw [dispatched_append, List.append_assoc]
          exact order
      | false =>
          rw [admitted, if_neg Bool.false_ne_true] at ran
          rw [if_neg Bool.false_ne_true, List.append_nil]
          split at ran
          · rename_i empty
            obtain ⟨resident, _, houses⟩ := tracked.houses
            have vacant := houses.vacant tracked.charged empty
            exact
              ⟨block, blocks, order,
                (vacant.canAdmit block config req).symm.trans admitted⟩
          · cases ran

/-! ## Dispatch to all multiprocessors -/

/-- Events of other multiprocessors do not show in a projection. -/
theorem allocatedOn_eq_nil
    {other : Nat}
    (elsewhere : ∀ event ∈ allocations events, event.1 ≠ other) :
    allocatedOn other events = [] := by
  rw [allocatedOn, List.filter_eq_nil_iff.mpr]
  · rfl
  · intro event member
    simp [elsewhere event member]

theorem releasedOn_eq_nil
    {other : Nat}
    (elsewhere : ∀ event ∈ releases events, event.1 ≠ other) :
    releasedOn other events = [] := by
  rw [releasedOn, List.filter_eq_nil_iff.mpr]
  · rfl
  · intro event member
    simp [elsewhere event member]

theorem allocatedOn_frame
    {other : Nat}
    {later : List DispatchEvent}
    (elsewhere : ∀ event ∈ allocations later, event.1 ≠ other) :
    allocatedOn other (events ++ later) = allocatedOn other events := by
  rw [allocatedOn_append, allocatedOn_eq_nil elsewhere, List.append_nil]

theorem releasedOn_frame
    {other : Nat}
    {later : List DispatchEvent}
    (elsewhere : ∀ event ∈ releases later, event.1 ≠ other) :
    releasedOn other (events ++ later) = releasedOn other events := by
  rw [releasedOn_append, releasedOn_eq_nil elsewhere, List.append_nil]

/-- The events of a preparation: releases of its own multiprocessor. -/
def Prepares (prepareEvents : Nat → SM σ → List DispatchEvent) : Prop :=
  ∀ smId sm,
    allocations (prepareEvents smId sm) = [] ∧
      ∀ event ∈ releases (prepareEvents smId sm), event.1 = smId

section All

variable {prepare : SM σ → SM σ}
variable {prepareEvents : Nat → SM σ → List DispatchEvent}
variable {sms : List (SM σ)}
variable {pending : List ThreadBlock}

/-- What is allocated fits and is on one of the multiprocessors. -/
theorem allocations_dispatchAllEvents
    (prepares : Prepares prepareEvents) :
    ∀ event ∈ allocations
        (dispatchAllEvents config req prepare prepareEvents smId sms
          pending),
      smId ≤ event.1 ∧ event.1 < smId + sms.length ∧
        SM.fitsEmpty event.2 config req = true := by
  induction sms generalizing smId pending with
  | nil => exact nofun
  | cons sm others inductionHypothesis =>
      intro event member
      rw [dispatchAllEvents, allocations_append, (prepares smId sm).1,
        List.nil_append, allocations_append, List.mem_append] at member
      rw [List.length_cons]
      rcases member with here | later
      · obtain ⟨onThis, fits⟩ := allocations_dispatchEvents event here
        exact ⟨by omega, by omega, fits⟩
      · cases ran : dispatch config req (prepare sm) pending with
        | error error =>
            rw [ran] at later
            cases later
        | ok result =>
            obtain ⟨after, rest⟩ := result
            rw [ran] at later
            obtain ⟨lower, upper, fits⟩ := inductionHypothesis event later
            exact ⟨by omega, by omega, fits⟩

/-- What is released is released by a preparation. -/
theorem releases_dispatchAllEvents
    (prepares : Prepares prepareEvents) :
    ∀ event ∈ releases
        (dispatchAllEvents config req prepare prepareEvents smId sms
          pending),
      smId ≤ event.1 ∧
        ∃ (index : Nat) (sm : SM σ),
          sms[index]? = some sm ∧
            event ∈ releases (prepareEvents (smId + index) sm) := by
  induction sms generalizing smId pending with
  | nil => exact nofun
  | cons sm others inductionHypothesis =>
      intro event member
      rw [dispatchAllEvents, releases_append, releases_append,
        releases_dispatchEvents, List.nil_append, List.mem_append]
        at member
      rcases member with here | later
      · exact ⟨((prepares smId sm).2 event here).ge, 0, sm, rfl, here⟩
      · cases ran : dispatch config req (prepare sm) pending with
        | error error =>
            rw [ran] at later
            cases later
        | ok result =>
            obtain ⟨after, rest⟩ := result
            rw [ran] at later
            obtain ⟨lower, index, other, found, isRelease⟩ :=
              inductionHypothesis event later
            refine ⟨by omega, index + 1, other, found, ?_⟩
            rw [← Nat.add_assoc, Nat.add_right_comm]
            exact isRelease

/--
Whatever happens on the other multiprocessors, the preparation tracks each one.
-/
def PreparesTracked
    (grid : Grid)
    (req : KernelResourceRequirements)
    (prepare : SM σ → SM σ)
    (prepareEvents : Nat → SM σ → List DispatchEvent)
    (events : List DispatchEvent)
    (smId : Nat)
    (sm : SM σ) :
    Prop :=
  ∀ others,
    allocatedOn smId others = allocatedOn smId events →
    releasedOn smId others = releasedOn smId events →
    (prepare sm).Tracked grid req smId (others ++ prepareEvents smId sm)

/-- Events of a multiprocessor do not show on the later ones. -/
theorem PreparesTracked.after
    (prepares : Prepares prepareEvents)
    {other : Nat}
    {first sm : SM σ}
    (tracks :
      PreparesTracked grid req prepare prepareEvents events other sm)
    (elsewhere : smId ≠ other) :
    PreparesTracked grid req prepare prepareEvents
      (events ++ prepareEvents smId first ++
        dispatchEvents config req smId (prepare first) pending)
      other sm := by
  intro others allocated released
  refine tracks others (allocated.trans ?_) (released.trans ?_)
  · rw [allocatedOn_frame, allocatedOn_frame]
    · rw [(prepares smId first).1]
      exact nofun
    · intro event member
      rw [(allocations_dispatchEvents event member).1]
      exact elsewhere
  · rw [releasedOn_frame, releasedOn_frame]
    · intro event member
      rw [(prepares smId first).2 event member]
      exact elsewhere
    · rw [releases_dispatchEvents]
      exact nofun

/-- What a dispatch to all multiprocessors does. -/
theorem dispatchAll_ok
    (wellFormed : grid.WellFormed)
    (prepares : Prepares prepareEvents)
    (tracks :
      ∀ (index : Nat) (sm : SM σ),
        sms[index]? = some sm →
        PreparesTracked grid req prepare prepareEvents events
          (smId + index) sm)
    (order : dispatched events ++ pending = grid.blocks)
    {after : List (SM σ)}
    {rest : List ThreadBlock}
    (ran :
      dispatchAll config req prepare sms pending = .ok (after, rest)) :
    let later :=
      events ++
        dispatchAllEvents config req prepare prepareEvents smId sms pending
    after.length = sms.length ∧
      dispatched later ++ rest = grid.blocks ∧
      ∀ (index : Nat) (sm : SM σ),
        after[index]? = some sm →
        sm.Tracked grid req (smId + index) later ∧
          (rest = [] ∨ sm.allocatedBlocks ≠ 0) := by
  induction sms generalizing smId events pending after with
  | nil =>
      cases ran
      rw [dispatchAllEvents, List.append_nil]
      exact ⟨rfl, order, by simp⟩
  | cons sm others inductionHypothesis =>
      obtain ⟨⟨first, middle⟩, dispatches, ran⟩ := except_bind_ok.mp ran
      obtain ⟨⟨afters, final⟩, continues, returned⟩ :=
        except_bind_ok.mp ran
      cases returned
      have quiet :
          dispatched (events ++ prepareEvents smId sm) =
            dispatched events := by
        rw [dispatched_append, dispatched, dispatched,
          (prepares smId sm).1, List.map_nil, List.append_nil]
      obtain ⟨tracked, orderMiddle, full⟩ :=
        dispatch_ok wellFormed (quiet ▸ order)
          (tracks 0 sm rfl events rfl rfl) dispatches
      have othersTrack
          (index : Nat)
          (other : SM σ)
          (found : others[index]? = some other) :
          PreparesTracked grid req prepare prepareEvents
            (events ++ prepareEvents smId sm ++
              dispatchEvents config req smId (prepare sm) pending)
            (smId + 1 + index) other := by
        rw [Nat.add_assoc, Nat.add_comm 1]
        exact (tracks (index + 1) other found).after prepares (by omega)
      obtain ⟨length, orderFinal, each⟩ :=
        inductionHypothesis othersTrack orderMiddle continues
      have shape :
          events ++
              dispatchAllEvents config req prepare prepareEvents smId
                (sm :: others) pending =
            events ++ prepareEvents smId sm ++
                dispatchEvents config req smId (prepare sm) pending ++
              dispatchAllEvents config req prepare prepareEvents (smId + 1)
                others middle := by
        rw [dispatchAllEvents, dispatches]
        simp only [List.append_assoc]
      dsimp only
      rw [shape]
      refine ⟨congrArg (· + 1) length, orderFinal, ?_⟩
      intro index found isFound
      cases index with
      | succ index =>
          rw [← Nat.add_assoc, Nat.add_right_comm]
          exact each index found isFound
      | zero =>
          cases isFound
          constructor
          · refine tracked.congr ?_ ?_
            · apply allocatedOn_frame
              intro event member
              have bounds :=
                allocations_dispatchAllEvents prepares event member
              omega
            · apply releasedOn_frame
              intro event member
              have bounds :=
                (releases_dispatchAllEvents prepares event member).1
              omega
          · rcases full with none | occupied
            · left
              rw [none, List.append_nil, Nat.add_zero] at orderMiddle
              rw [dispatched_append, orderMiddle, List.append_assoc,
                List.append_right_eq_self, List.append_eq_nil_iff]
                at orderFinal
              exact orderFinal.2
            · exact Or.inr occupied

/-- A dispatch to all multiprocessors throws at a block that fits nowhere. -/
theorem dispatchAll_error
    (wellFormed : grid.WellFormed)
    (prepares : Prepares prepareEvents)
    (tracks :
      ∀ (index : Nat) (sm : SM σ),
        sms[index]? = some sm →
        PreparesTracked grid req prepare prepareEvents events
          (smId + index) sm)
    (order : dispatched events ++ pending = grid.blocks)
    {error : SimError}
    (ran : dispatchAll config req prepare sms pending = .error error) :
    ∃ block rest,
      dispatched
            (events ++
              dispatchAllEvents config req prepare prepareEvents smId sms
                pending) ++
          block :: rest =
        grid.blocks ∧
      SM.fitsEmpty block config req = false := by
  induction sms generalizing smId events pending with
  | nil => cases ran
  | cons sm others inductionHypothesis =>
      have quiet :
          dispatched (events ++ prepareEvents smId sm) =
            dispatched events := by
        rw [dispatched_append, dispatched, dispatched,
          (prepares smId sm).1, List.map_nil, List.append_nil]
      have tracked := tracks 0 sm rfl events rfl rfl
      rw [dispatchAllEvents]
      cases dispatches : dispatch config req (prepare sm) pending with
      | error thrown =>
          dsimp only
          rw [List.append_nil, ← List.append_assoc]
          exact
            dispatch_error wellFormed (quiet ▸ order) tracked dispatches
      | ok result =>
          obtain ⟨first, middle⟩ := result
          obtain ⟨_, orderMiddle, _⟩ :=
            dispatch_ok wellFormed (quiet ▸ order) tracked dispatches
          dsimp only
          rw [← List.append_assoc, ← List.append_assoc]
          refine inductionHypothesis ?_ orderMiddle ?_
          · intro index other found
            rw [Nat.add_assoc, Nat.add_comm 1]
            exact
              (tracks (index + 1) other found).after prepares (by omega)
          · rw [dispatchAll, dispatches] at ran
            change
              (dispatchAll config req prepare others middle >>= _) = _
              at ran
            cases continues :
                dispatchAll config req prepare others middle with
            | error thrown =>
                rw [continues] at ran
                cases ran
                rfl
            | ok result =>
                rw [continues] at ran
                cases ran

end All

/-! ## The admitted blocks -/

/-- Some blocks admitted one after the other. -/
def admitAll
    (req : KernelResourceRequirements)
    (sm : SM σ)
    (blocks : List ThreadBlock) :
    SM σ :=
  blocks.foldl (fun sm block => sm.allocateBlock block req) sm

/-- A dispatch admits the pending blocks up to some point. -/
theorem dispatch_admits
    {sm after : SM σ}
    {pending rest : List ThreadBlock}
    (ran : dispatch config req sm pending = .ok (after, rest)) :
    ∃ admitted,
      admitted ++ rest = pending ∧ after = admitAll req sm admitted := by
  induction pending generalizing sm with
  | nil =>
      cases ran
      exact ⟨[], rfl, rfl⟩
  | cons block blocks inductionHypothesis =>
      rw [dispatch] at ran
      split at ran
      · rcases inductionHypothesis ran with ⟨admitted, order, same⟩
        exact ⟨block :: admitted, congrArg (block :: ·) order, same⟩
      · split at ran
        · cases ran
        · cases ran
          exact ⟨[], rfl, rfl⟩

/-- What loading blocks does to one multiprocessor. -/
def Loads
    (req : KernelResourceRequirements)
    (prepare : SM σ → SM σ)
    (pending : List ThreadBlock)
    (before after : SM σ) :
    Prop :=
  ∃ admitted,
    (∀ block ∈ admitted, block ∈ pending) ∧
      after = admitAll req (prepare before) admitted

/-- Every multiprocessor is prepared and admits some of the blocks. -/
theorem dispatchAll_loads
    {prepare : SM σ → SM σ}
    {sms after : List (SM σ)}
    {pending rest : List ThreadBlock}
    (ran : dispatchAll config req prepare sms pending = .ok (after, rest)) :
    List.Forall₂ (Loads req prepare pending) sms after := by
  induction sms generalizing pending after with
  | nil =>
      cases ran
      exact .nil
  | cons sm others inductionHypothesis =>
      rw [dispatchAll] at ran
      rcases except_bind_ok.mp ran with ⟨⟨loaded, left⟩, first, next⟩
      rcases except_bind_ok.mp next with
        ⟨⟨loadedOthers, _⟩, later, returned⟩
      cases returned
      rcases dispatch_admits first with ⟨admitted, order, same⟩
      have isPending (block : ThreadBlock) :
          block ∈ admitted ∨ block ∈ left → block ∈ pending := by
        rw [← order, List.mem_append]
        exact id
      refine .cons ⟨admitted, fun block now => ?_, same⟩ ?_
      · exact isPending block (Or.inl now)
      · apply (inductionHypothesis later).imp
        rintro before after ⟨others, areLeft, same⟩
        exact
          ⟨others, fun block now => isPending block (Or.inr (areLeft block now)),
            same⟩

/-- Loading blocks changes the multiprocessors and the dispatch pointer only. -/
theorem loadBlocks_loads
    {gpu after : GPU σ}
    {prepare : SM σ → SM σ}
    (ran : gpu.loadBlocks prepare = .ok after) :
    after.pendingBlocks = gpu.pendingBlocks ∧ after.req = gpu.req ∧
      List.Forall₂ (Loads gpu.req prepare gpu.pendingBlocks)
        gpu.sms after.sms := by
  rcases except_bind_ok.mp ran with ⟨⟨sms, rest⟩, dispatches, returned⟩
  cases returned
  refine ⟨rfl, rfl, (dispatchAll_loads dispatches).imp ?_⟩
  rintro before loaded ⟨admitted, areRemaining, same⟩
  exact
    ⟨admitted, fun block now => List.mem_of_mem_drop (areRemaining block now),
      same⟩

/-! ## The whole GPU -/

/-- A launch clears and releases nothing. -/
theorem prepares_clearWarps :
    Prepares fun (_ : Nat) (_ : SM σ) => ([] : List DispatchEvent) :=
  fun _ _ => ⟨rfl, fun _ member => (List.not_mem_nil member).elim⟩

/-- A refill releases on every multiprocessor alone. -/
theorem prepares_releaseCompletedBlocks :
    Prepares fun smId (sm : SM σ) =>
      sm.releaseEvents smId sm.residentBlocks := by
  refine fun smId sm => ⟨SM.allocations_releaseEvents, ?_⟩
  dsimp only
  generalize sm.residentBlocks = blocks
  induction blocks generalizing sm with
  | nil => exact nofun
  | cons block rest inductionHypothesis =>
      rw [SM.releaseEvents]
      split
      · intro event member
        rcases List.mem_cons.mp member with rfl | inRest
        · rfl
        · exact inductionHypothesis _ event inRest
      · exact inductionHypothesis _

/-- The GPU has dispatched the grid up to its dispatch pointer. -/
structure Tracked
    (grid : Grid)
    (config : SystemConfig)
    (req : KernelResourceRequirements)
    (numSms : Nat)
    (events : List DispatchEvent)
    (gpu : GPU σ) :
    Prop where
  sameConfig : gpu.config = config
  sameReq : gpu.req = req
  smCount : gpu.sms.length = numSms
  pendingBlocks : gpu.pendingBlocks = grid.blocks
  order : dispatched events ++ gpu.remaining = grid.blocks
  sms :
    ∀ (smId : Nat) (sm : SM σ),
      gpu.sms[smId]? = some sm → sm.Tracked grid req smId events
  allocations :
    ∀ event ∈ allocations events,
      event.1 < numSms ∧ SM.fitsEmpty event.2 config req = true
  releases :
    ∀ event ∈ releases events, event.1 < numSms ∧ Finished grid event

/-- What is still to be dispatched after a load, from what was before. -/
theorem remaining_after
    {gpu : GPU σ}
    {sms : List (SM σ)}
    {earlier rest : List ThreadBlock}
    (order : earlier ++ rest = gpu.pendingBlocks) :
    ({ gpu with
        sms := sms
        currentBlockIdx := gpu.pendingBlocks.length - rest.length } :
      GPU σ).remaining = rest := by
  change
    gpu.pendingBlocks.drop (gpu.pendingBlocks.length - rest.length) = rest
  rw [← order, List.length_append, Nat.add_sub_cancel, List.drop_left]

/-- Loading blocks keeps track, and leaves no multiprocessor needlessly empty. -/
theorem loadBlocks_tracked
    (wellFormed : grid.WellFormed)
    {prepare : SM σ → SM σ}
    {prepareEvents : Nat → SM σ → List DispatchEvent}
    (prepares : Prepares prepareEvents)
    {gpu after : GPU σ}
    (tracks :
      ∀ (smId : Nat) (sm : SM σ),
        gpu.sms[smId]? = some sm →
        PreparesTracked grid gpu.req prepare prepareEvents events smId sm)
    (finished :
      ∀ (smId : Nat) (sm : SM σ),
        gpu.sms[smId]? = some sm →
        ∀ event ∈ releases (prepareEvents smId sm), Finished grid event)
    (pendingBlocks : gpu.pendingBlocks = grid.blocks)
    (order : dispatched events ++ gpu.remaining = grid.blocks)
    (allocated :
      ∀ event ∈ allocations events,
        event.1 < gpu.sms.length ∧
          SM.fitsEmpty event.2 gpu.config gpu.req = true)
    (released :
      ∀ event ∈ releases events,
        event.1 < gpu.sms.length ∧ Finished grid event)
    (ran : gpu.loadBlocks prepare = .ok after) :
    after.Tracked grid gpu.config gpu.req gpu.sms.length
        (events ++
          dispatchAllEvents gpu.config gpu.req prepare prepareEvents 0
            gpu.sms gpu.remaining) ∧
      ∀ sm ∈ after.sms, after.remaining = [] ∨ sm.allocatedBlocks ≠ 0 := by
  obtain ⟨⟨sms, rest⟩, dispatches, returned⟩ := except_bind_ok.mp ran
  cases returned
  have tracksFromZero
      (index : Nat)
      (sm : SM σ)
      (found : gpu.sms[index]? = some sm) :
      PreparesTracked grid gpu.req prepare prepareEvents events
        (0 + index) sm := by
    rw [Nat.zero_add]
    exact tracks index sm found
  obtain ⟨length, orderAfter, each⟩ :=
    dispatchAll_ok wellFormed prepares tracksFromZero order dispatches
  simp only [Nat.zero_add] at each
  have remaining :
      ({ gpu with
          sms := sms
          currentBlockIdx := gpu.pendingBlocks.length - rest.length } :
        GPU σ).remaining = rest :=
    remaining_after (orderAfter.trans pendingBlocks.symm)
  refine
    ⟨⟨rfl, rfl, length, pendingBlocks, ?_, fun smId sm found =>
      (each smId sm found).1, ?_, ?_⟩, ?_⟩
  · rw [remaining]
    exact orderAfter
  · intro event member
    rw [allocations_append, List.mem_append] at member
    rcases member with earlier | now
    · exact allocated event earlier
    · have bounds := allocations_dispatchAllEvents prepares event now
      exact ⟨by omega, bounds.2.2⟩
  · intro event member
    rw [releases_append, List.mem_append] at member
    rcases member with earlier | now
    · exact released event earlier
    · obtain ⟨_, index, sm, found, isRelease⟩ :=
        releases_dispatchAllEvents prepares event now
      rw [Nat.zero_add] at isRelease
      refine ⟨?_, finished index sm found event isRelease⟩
      rw [(prepares index sm).2 event isRelease]
      exact (List.getElem?_eq_some_iff.mp found).1
  · intro sm member
    obtain ⟨smId, found⟩ := List.mem_iff_getElem?.mp member
    rw [remaining]
    exact (each smId sm found).2

/-- A load that throws has come to a block that fits nowhere. -/
theorem loadBlocks_error
    (wellFormed : grid.WellFormed)
    {prepare : SM σ → SM σ}
    {prepareEvents : Nat → SM σ → List DispatchEvent}
    (prepares : Prepares prepareEvents)
    {gpu : GPU σ}
    {error : SimError}
    (tracks :
      ∀ (smId : Nat) (sm : SM σ),
        gpu.sms[smId]? = some sm →
        PreparesTracked grid gpu.req prepare prepareEvents events smId sm)
    (order : dispatched events ++ gpu.remaining = grid.blocks)
    (ran : gpu.loadBlocks prepare = .error error) :
    ∃ block rest,
      dispatched
            (events ++
              dispatchAllEvents gpu.config gpu.req prepare prepareEvents 0
                gpu.sms gpu.remaining) ++
          block :: rest =
        grid.blocks ∧
      SM.fitsEmpty block gpu.config gpu.req = false := by
  have tracksFromZero
      (index : Nat)
      (sm : SM σ)
      (found : gpu.sms[index]? = some sm) :
      PreparesTracked grid gpu.req prepare prepareEvents events
        (0 + index) sm := by
    rw [Nat.zero_add]
    exact tracks index sm found
  cases dispatches :
      dispatchAll gpu.config gpu.req prepare gpu.sms gpu.remaining with
  | error thrown =>
      exact
        dispatchAll_error wellFormed prepares tracksFromZero order
          dispatches
  | ok result =>
      rw [loadBlocks, dispatches] at ran
      cases ran

/-- Clearing leaves nothing of an earlier launch. -/
theorem launch_prepares
    (smId : Nat)
    (sm : SM σ) :
    PreparesTracked grid req SM.clearWarps (fun _ _ => []) [] smId sm := by
  intro others allocated released
  rw [List.append_nil]
  exact .ofVacant sm.clearWarps_vacant allocated released

/-- A launch starts to dispatch the grid. -/
theorem launch_tracked
    (wellFormed : grid.WellFormed)
    {gpu after : GPU σ}
    (ran : gpu.launchKernel grid config req = .ok after) :
    after.Tracked grid config req gpu.sms.length
      (gpu.launchEvents grid config req) := by
  let start : GPU σ :=
    { gpu with
      config := config
      req := req
      pendingBlocks := grid.blocks
      currentBlockIdx := 0 }
  have order : dispatched [] ++ start.remaining = grid.blocks := rfl
  have loaded :=
    loadBlocks_tracked wellFormed prepares_clearWarps
      (fun smId sm _ => launch_prepares smId sm)
      (fun _ _ _ _ member => (List.not_mem_nil member).elim)
      rfl order nofun nofun ran
  exact loaded.1

/-- A launch that throws has come to a block that fits nowhere. -/
theorem launch_error
    (wellFormed : grid.WellFormed)
    {gpu : GPU σ}
    {error : SimError}
    (ran : gpu.launchKernel grid config req = .error error) :
    ∃ block rest,
      dispatched (gpu.launchEvents grid config req) ++ block :: rest =
          grid.blocks ∧
        SM.fitsEmpty block config req = false := by
  let start : GPU σ :=
    { gpu with
      config := config
      req := req
      pendingBlocks := grid.blocks
      currentBlockIdx := 0 }
  have order : dispatched [] ++ start.remaining = grid.blocks := rfl
  exact
    loadBlocks_error wellFormed prepares_clearWarps
      (fun smId sm _ => launch_prepares smId sm) order ran

/-- What a refill knows of every multiprocessor. -/
theorem Tracked.prepares
    {numSms : Nat}
    {gpu : GPU σ}
    (tracked : gpu.Tracked grid config req numSms events)
    (smId : Nat)
    (sm : SM σ)
    (found : gpu.sms[smId]? = some sm) :
    PreparesTracked grid gpu.req SM.releaseCompletedBlocks
      (fun smId sm => sm.releaseEvents smId sm.residentBlocks) events smId
      sm := by
  intro others allocated released
  rw [tracked.sameReq]
  exact ((tracked.sms smId sm found).congr allocated released).release

/-- A refill releases and dispatches. -/
theorem refill_tracked
    (wellFormed : grid.WellFormed)
    {numSms : Nat}
    {gpu after : GPU σ}
    (tracked : gpu.Tracked grid config req numSms events)
    (ran : gpu.refill = .ok after) :
    after.Tracked grid config req numSms (events ++ gpu.refillEvents) ∧
      ∀ sm ∈ after.sms,
        after.remaining = [] ∨ sm.allocatedBlocks ≠ 0 := by
  have allocations := tracked.allocations
  have released := tracked.releases
  rw [← tracked.sameConfig, ← tracked.sameReq, ← tracked.smCount]
    at allocations
  rw [← tracked.smCount] at released
  have finished
      (smId : Nat)
      (sm : SM σ)
      (found : gpu.sms[smId]? = some sm) :
      ∀ event ∈ releases (sm.releaseEvents smId sm.residentBlocks),
        Finished grid event := by
    intro event member
    have trackedSm := tracked.sms smId sm found
    obtain ⟨_, _, houses⟩ := trackedSm.houses
    rw [SM.releases_releaseEvents houses.distinct] at member
    obtain ⟨block, isFinished, rfl⟩ := List.mem_map.mp member
    exact trackedSm.finished isFinished
  have loaded :=
    loadBlocks_tracked wellFormed prepares_releaseCompletedBlocks
      tracked.prepares finished tracked.pendingBlocks tracked.order
      allocations released ran
  unfold refillEvents
  rw [tracked.sameConfig, tracked.sameReq, tracked.smCount] at loaded
  rwa [tracked.sameConfig, tracked.sameReq]

/-- A refill that throws has come to a block that fits nowhere. -/
theorem refill_error
    (wellFormed : grid.WellFormed)
    {numSms : Nat}
    {gpu : GPU σ}
    {error : SimError}
    (tracked : gpu.Tracked grid config req numSms events)
    (ran : gpu.refill = .error error) :
    ∃ block rest,
      dispatched (events ++ gpu.refillEvents) ++ block :: rest =
          grid.blocks ∧
        SM.fitsEmpty block config req = false := by
  have failed :=
    loadBlocks_error wellFormed prepares_releaseCompletedBlocks
      tracked.prepares tracked.order ran
  rw [tracked.sameConfig, tracked.sameReq] at failed
  unfold refillEvents
  rwa [tracked.sameConfig, tracked.sameReq]

/-! ## Ticks -/

/-- What the tick phase does to one multiprocessor. -/
def Ticks
    [WarpScheduler σ]
    (kernel : Kernel)
    (before after : SM σ) :
    Prop :=
  after = before ∧ before.isCompleted = true ∨
    before.isCompleted = false ∧
      ∃ memory memory' ticked,
        before.tick kernel memory = .ok (ticked, memory') ∧
          after =
            { ticked with
              sharedMemory := memory'.sharedMemory
              l1Cache := memory'.l1Cache }

/-- The tick phase ticks every uncompleted multiprocessor, and says so. -/
theorem tickSms_ok
    [WarpScheduler σ]
    {kernel : Kernel}
    {memoryConfig : MemoryAccessConfig}
    {sms after : List (SM σ)}
    {l2Cache l2Cache' : Cache}
    {globalMemory globalMemory' : GlobalMemory}
    {allDone : Bool}
    (ran :
      tickSms kernel memoryConfig sms l2Cache globalMemory =
        .ok (allDone, after, l2Cache', globalMemory')) :
    List.Forall₂ (Ticks kernel) sms after ∧
      (allDone = true → ∀ sm ∈ sms, sm.isCompleted = true) := by
  induction sms generalizing after l2Cache globalMemory allDone with
  | nil =>
      cases ran
      exact ⟨.nil, by simp⟩
  | cons sm others inductionHypothesis =>
      unfold tickSms at ran
      split at ran
      · rename_i completed
        obtain ⟨⟨done, tickedOthers, _, _⟩, later, returned⟩ :=
          except_bind_ok.mp ran
        cases returned
        obtain ⟨ticks, allCompleted⟩ := inductionHypothesis later
        refine ⟨.cons (Or.inl ⟨rfl, completed⟩) ticks, ?_⟩
        intro done other member
        rcases List.mem_cons.mp member with rfl | inRest
        · exact completed
        · exact allCompleted done other inRest
      · rename_i uncompleted
        obtain ⟨⟨tickedSm, _, _⟩, now, next⟩ := except_bind_ok.mp ran
        obtain ⟨⟨_, tickedOthers, _, _⟩, later, returned⟩ :=
          except_bind_ok.mp next
        cases returned
        obtain ⟨⟨ticked, memory'⟩, ticks, returned⟩ :=
          except_bind_ok.mp now
        cases returned
        refine ⟨.cons (Or.inr ⟨?_, ?_⟩) (inductionHypothesis later).1, ?_⟩
        · rwa [Bool.not_eq_true] at uncompleted
        · exact ⟨_, memory', ticked, ticks, rfl⟩
        · intro done
          cases done

/-- A tick phase tracks. -/
theorem Ticks.tracked
    [WarpScheduler σ]
    {kernel : Kernel}
    {before after : SM σ}
    (ticks : Ticks kernel before after)
    (tracked : before.Tracked grid req smId events) :
    after.Tracked grid req smId events := by
  rcases ticks with ⟨rfl, _⟩ | ⟨_, memory, memory', ticked, ran, rfl⟩
  · exact tracked
  · exact (tracked.tick ran).withMemory _ _

/-! ## Blocks that are not completed -/

/-- Allocating a block that is not completed. -/
theorem live_allocate
    {sm : SM σ}
    (live : sm.Live)
    {block : ThreadBlock}
    (nonempty : block.warps ≠ [])
    (wellFormed : block.WellFormed)
    (unstarted : ∀ warp ∈ block.warps, warp.state ≠ .completed) :
    (sm.allocateBlock block req).Live := by
  have admits := SM.allocateBlock_admits sm block req
  intro resident isResident
  rw [admits.residentBlocks, List.mem_append] at isResident
  rw [admits.warps]
  rcases isResident with old | new
  · obtain ⟨warp, member, ofBlock, running⟩ := live resident old
    exact ⟨warp, List.mem_append_left _ member, ofBlock, running⟩
  · rw [List.mem_singleton.mp new]
    obtain ⟨warp, rest, shape⟩ := List.exists_cons_of_ne_nil nonempty
    have member : warp ∈ block.warps := by
      rw [shape]
      exact List.mem_cons_self ..
    exact
      ⟨warp, List.mem_append_right _ member, wellFormed.blockId? member,
        unstarted warp member⟩

/-- A dispatch leaves every resident block uncompleted. -/
theorem dispatch_live
    {sm after : SM σ}
    {pending rest : List ThreadBlock}
    (wellFormed :
      ∀ block ∈ pending,
        block.warps ≠ [] ∧ block.WellFormed ∧
          ∀ warp ∈ block.warps, warp.state ≠ .completed)
    (live : sm.Live)
    (ran : dispatch config req sm pending = .ok (after, rest)) :
    after.Live ∧ ∀ block ∈ rest, block ∈ pending := by
  induction pending generalizing sm with
  | nil =>
      cases ran
      exact ⟨live, fun _ member => member⟩
  | cons block blocks inductionHypothesis =>
      rw [dispatch] at ran
      split at ran
      · obtain ⟨nonempty, formed, unstarted⟩ :=
          wellFormed block (List.mem_cons_self ..)
        obtain ⟨liveAfter, isRest⟩ :=
          inductionHypothesis
            (fun other member =>
              wellFormed other (List.mem_cons_of_mem block member))
            (live_allocate live nonempty formed unstarted) ran
        exact
          ⟨liveAfter, fun other member =>
            List.mem_cons_of_mem block (isRest other member)⟩
      · split at ran
        · cases ran
        · cases ran
          exact ⟨live, fun _ member => member⟩

/-- So does a dispatch to all multiprocessors. -/
theorem dispatchAll_live
    {prepare : SM σ → SM σ}
    {sms after : List (SM σ)}
    {pending rest : List ThreadBlock}
    (wellFormed :
      ∀ block ∈ pending,
        block.warps ≠ [] ∧ block.WellFormed ∧
          ∀ warp ∈ block.warps, warp.state ≠ .completed)
    (live : ∀ sm ∈ sms, (prepare sm).Live)
    (ran :
      dispatchAll config req prepare sms pending = .ok (after, rest)) :
    ∀ sm ∈ after, sm.Live := by
  induction sms generalizing pending after with
  | nil =>
      cases ran
      exact nofun
  | cons sm others inductionHypothesis =>
      obtain ⟨⟨first, middle⟩, dispatches, ran⟩ := except_bind_ok.mp ran
      obtain ⟨⟨afters, final⟩, continues, returned⟩ :=
        except_bind_ok.mp ran
      cases returned
      obtain ⟨firstLive, isMiddle⟩ :=
        dispatch_live wellFormed (live sm (List.mem_cons_self ..))
          dispatches
      intro other member
      rcases List.mem_cons.mp member with rfl | inRest
      · exact firstLive
      · refine
          inductionHypothesis (fun block isPending => ?_)
            (fun sm isOther => live sm (List.mem_cons_of_mem _ isOther))
            continues other inRest
        exact wellFormed block (isMiddle block isPending)

/-- A completed multiprocessor without completed blocks is empty. -/
theorem residentBlocks_of_isCompleted
    {sm : SM σ}
    (live : sm.Live)
    (completed : sm.isCompleted = true) :
    sm.residentBlocks = [] := by
  rw [List.eq_nil_iff_forall_not_mem]
  intro block isResident
  obtain ⟨warp, member, _, running⟩ := live block isResident
  exact running (SM.completed_of_isCompleted completed member)

/-! ## Runs -/

/-- A tick phase tracks every multiprocessor. -/
theorem Tracked.tickSms
    [WarpScheduler σ]
    {kernel : Kernel}
    {numSms : Nat}
    {gpu : GPU σ}
    {sms : List (SM σ)}
    (tracked : gpu.Tracked grid config req numSms events)
    (ticks : List.Forall₂ (Ticks kernel) gpu.sms sms)
    (l2Cache : Cache)
    (globalMemory : GlobalMemory) :
    ({ gpu with
        sms := sms, l2Cache := l2Cache, globalMemory := globalMemory } :
      GPU σ).Tracked grid config req numSms events where
  sameConfig := tracked.sameConfig
  sameReq := tracked.sameReq
  smCount := ticks.length_eq.symm.trans tracked.smCount
  pendingBlocks := tracked.pendingBlocks
  order := tracked.order
  sms := by
    intro smId sm found
    obtain ⟨before, foundBefore, tick⟩ := Pointwise.origin ticks found
    exact tick.tracked (tracked.sms smId before foundBefore)
  allocations := tracked.allocations
  releases := tracked.releases

/--
An iteration tracks; when it ends the run, nothing is left to dispatch and
nothing is resident.
-/
theorem iterate_tracked
    [WarpScheduler σ]
    {kernel : Kernel}
    (wellFormed : grid.WellFormed)
    {numSms : Nat}
    {gpu after : GPU σ}
    {allDone : Bool}
    (tracked : gpu.Tracked grid config req numSms events)
    (ran : gpu.iterate kernel = .ok (allDone, after)) :
    after.Tracked grid config req numSms (events ++ gpu.refillEvents) ∧
      (allDone = true →
        0 < numSms →
        grid.Unstarted →
        after.remaining = [] ∧
          ∀ sm ∈ after.sms, sm.residentBlocks = []) := by
  obtain ⟨refilled, refills, ran⟩ := except_bind_ok.mp ran
  obtain ⟨⟨done, sms, l2Cache, globalMemory⟩, ticks, returned⟩ :=
    except_bind_ok.mp ran
  cases returned
  obtain ⟨trackedRefilled, full⟩ :=
    refill_tracked wellFormed tracked refills
  obtain ⟨pointwise, completed⟩ := tickSms_ok ticks
  refine
    ⟨trackedRefilled.tickSms pointwise l2Cache globalMemory,
      fun done some unstarted => ?_⟩
  have live : ∀ sm ∈ refilled.sms, sm.Live := by
    obtain ⟨⟨loaded, rest⟩, dispatches, returned⟩ :=
      except_bind_ok.mp refills
    cases returned
    refine dispatchAll_live (fun block member => ?_) (fun sm member => ?_)
      dispatches
    · have isBlock : block ∈ grid.blocks := by
        rw [← tracked.order]
        exact List.mem_append_right _ member
      obtain ⟨nonempty, formed⟩ := wellFormed.blocks block isBlock
      exact ⟨nonempty, formed, unstarted block isBlock⟩
    · obtain ⟨smId, found⟩ := List.mem_iff_getElem?.mp member
      obtain ⟨_, _, houses⟩ := (tracked.sms smId sm found).houses
      exact houses.release_unfinished
  have empty (sm : SM σ) (member : sm ∈ refilled.sms) :
      sm.residentBlocks = [] :=
    residentBlocks_of_isCompleted (live sm member)
      (completed done sm member)
  constructor
  · change refilled.remaining = []
    obtain ⟨sm, rest, shape⟩ :=
      List.exists_cons_of_length_pos (trackedRefilled.smCount ▸ some)
    have member : sm ∈ refilled.sms := by
      rw [shape]
      exact List.mem_cons_self ..
    refine (full sm member).resolve_right fun occupied => occupied ?_
    obtain ⟨smId, found⟩ := List.mem_iff_getElem?.mp member
    rw [(trackedRefilled.sms smId sm found).charged.count,
      empty sm member]
    rfl
  · intro sm member
    obtain ⟨smId, found⟩ := List.mem_iff_getElem?.mp member
    obtain ⟨before, foundBefore, tick⟩ := Pointwise.origin pointwise found
    have isBefore := List.mem_of_getElem? foundBefore
    rcases tick with ⟨rfl, _⟩ | ⟨uncompleted, _⟩
    · exact empty sm isBefore
    · rw [completed done before isBefore] at uncompleted
      cases uncompleted

/-- A run that returns normally tracks, and ends with nothing to do. -/
theorem run_tracked
    [WarpScheduler σ]
    {kernel : Kernel}
    (wellFormed : grid.WellFormed)
    {numSms fuel : Nat}
    {gpu after : GPU σ}
    (tracked : gpu.Tracked grid config req numSms events)
    (ran : gpu.runToCompletion kernel fuel = some (.ok after)) :
    after.Tracked grid config req numSms
        (events ++ gpu.runEvents kernel fuel) ∧
      (0 < numSms →
        grid.Unstarted →
        after.remaining = [] ∧
          ∀ sm ∈ after.sms, sm.residentBlocks = []) := by
  induction fuel generalizing gpu events with
  | zero => cases ran
  | succ fuel inductionHypothesis =>
      rw [runToCompletion] at ran
      rw [runEvents]
      cases iterates : gpu.iterate kernel with
      | error error =>
          rw [iterates] at ran
          cases ran
      | ok pair =>
          obtain ⟨allDone, middle⟩ := pair
          rw [iterates] at ran
          obtain ⟨trackedMiddle, ended⟩ :=
            iterate_tracked wellFormed tracked iterates
          cases allDone with
          | true =>
              cases ran
              dsimp only
              rw [List.append_nil]
              exact ⟨trackedMiddle, ended rfl⟩
          | false =>
              dsimp only
              rw [← List.append_assoc]
              exact inductionHypothesis trackedMiddle ran

/-- An iteration that throws for an impossible block throws at its refill. -/
theorem refill_of_iterate
    [WarpScheduler σ]
    {kernel : Kernel}
    {gpu : GPU σ}
    (ran : gpu.iterate kernel = .error .impossibleBlock) :
    gpu.refill = .error .impossibleBlock := by
  unfold iterate at ran
  cases refills : gpu.refill with
  | error error =>
      rw [refills] at ran
      cases ran
      rfl
  | ok refilled =>
      rw [refills] at ran
      have noTick :=
        tickSms_ne_impossible kernel refilled.config.memoryAccessConfig
          refilled.sms refilled.l2Cache refilled.globalMemory
      exact
        (except_bind_ne noTick (fun _ returned => by cases returned)
          ran).elim

/-- A run that throws for an impossible block has come to it. -/
theorem run_error
    [WarpScheduler σ]
    {kernel : Kernel}
    (wellFormed : grid.WellFormed)
    {numSms fuel : Nat}
    {gpu : GPU σ}
    (tracked : gpu.Tracked grid config req numSms events)
    (ran :
      gpu.runToCompletion kernel fuel = some (.error .impossibleBlock)) :
    ∃ block rest,
      dispatched (events ++ gpu.runEvents kernel fuel) ++ block :: rest =
          grid.blocks ∧
        SM.fitsEmpty block config req = false := by
  induction fuel generalizing gpu events with
  | zero => cases ran
  | succ fuel inductionHypothesis =>
      rw [runToCompletion] at ran
      rw [runEvents]
      cases iterates : gpu.iterate kernel with
      | error error =>
          rw [iterates] at ran
          cases ran
          dsimp only
          rw [List.append_nil]
          exact refill_error wellFormed tracked (refill_of_iterate iterates)
      | ok pair =>
          obtain ⟨allDone, middle⟩ := pair
          rw [iterates] at ran
          obtain ⟨trackedMiddle, _⟩ :=
            iterate_tracked wellFormed tracked iterates
          cases allDone with
          | true => cases ran
          | false =>
              dsimp only
              rw [← List.append_assoc]
              exact inductionHypothesis trackedMiddle ran

/-! ## Every block, once and to its end -/

/-- Launch a grid and run it to completion, for at most `fuel` iterations. -/
def launchAndRun
    [WarpScheduler σ]
    (gpu : GPU σ)
    (grid : Grid)
    (config : SystemConfig)
    (req : KernelResourceRequirements)
    (kernel : Kernel)
    (fuel : Nat) :
    Option (Except SimError (GPU σ)) :=
  match gpu.launchKernel grid config req with
  | .error error => some (.error error)
  | .ok launched => launched.runToCompletion kernel fuel

/-- The events of a launch and a run. -/
def launchAndRunEvents
    [WarpScheduler σ]
    (gpu : GPU σ)
    (grid : Grid)
    (config : SystemConfig)
    (req : KernelResourceRequirements)
    (kernel : Kernel)
    (fuel : Nat) :
    List DispatchEvent :=
  gpu.launchEvents grid config req ++
    match gpu.launchKernel grid config req with
    | .error _ => []
    | .ok launched => launched.runEvents kernel fuel

/-- A launch and a run that return normally come from both. -/
theorem launchAndRun_ok
    [WarpScheduler σ]
    {kernel : Kernel}
    {fuel : Nat}
    {gpu after : GPU σ}
    (ran : gpu.launchAndRun grid config req kernel fuel = some (.ok after)) :
    ∃ launched,
      gpu.launchKernel grid config req = .ok launched ∧
        launched.runToCompletion kernel fuel = some (.ok after) := by
  unfold launchAndRun at ran
  cases launches : gpu.launchKernel grid config req with
  | error error =>
      rw [launches] at ran
      cases ran
  | ok launched =>
      rw [launches] at ran
      exact ⟨launched, rfl, ran⟩

/-- A launch and a run track the grid. -/
theorem launchAndRun_tracked
    [WarpScheduler σ]
    {kernel : Kernel}
    (wellFormed : grid.WellFormed)
    {fuel : Nat}
    {gpu after : GPU σ}
    (ran : gpu.launchAndRun grid config req kernel fuel = some (.ok after)) :
    after.Tracked grid config req gpu.sms.length
        (gpu.launchAndRunEvents grid config req kernel fuel) ∧
      (0 < gpu.sms.length →
        grid.Unstarted →
        after.remaining = [] ∧
          ∀ sm ∈ after.sms, sm.residentBlocks = []) := by
  obtain ⟨launched, launches, runs⟩ := launchAndRun_ok ran
  have started := launch_tracked wellFormed launches
  have ended := run_tracked wellFormed started runs
  unfold launchAndRunEvents
  rw [launches]
  exact ended

/-- A launch or a run that throws for an impossible block has come to it. -/
theorem launchAndRun_error
    [WarpScheduler σ]
    {kernel : Kernel}
    (wellFormed : grid.WellFormed)
    {fuel : Nat}
    {gpu : GPU σ}
    (ran :
      gpu.launchAndRun grid config req kernel fuel =
        some (.error .impossibleBlock)) :
    ∃ block rest,
      dispatched (gpu.launchAndRunEvents grid config req kernel fuel) ++
            block :: rest =
          grid.blocks ∧
        SM.fitsEmpty block config req = false := by
  unfold launchAndRun at ran
  unfold launchAndRunEvents
  cases launches : gpu.launchKernel grid config req with
  | error error =>
      dsimp only
      rw [List.append_nil]
      exact launch_error wellFormed launches
  | ok launched =>
      rw [launches] at ran
      exact run_error wellFormed (launch_tracked wellFormed launches) ran

/--
When a launch and a run return normally, every block of the grid has been
allocated once and in order, and released again with all its warps completed.
When they throw for an impossible block, the block at the dispatch pointer fits
no empty multiprocessor; a grid with such a block never returns normally.
-/
theorem every_block_dispatched_once
    [WarpScheduler σ]
    {gpu : GPU σ}
    (some : gpu.sms ≠ [])
    {grid : Grid}
    (wellFormed : grid.WellFormed)
    (unstarted : grid.Unstarted)
    (config : SystemConfig)
    (req : KernelResourceRequirements)
    (kernel : Kernel)
    (fuel : Nat) :
    let outcome := gpu.launchAndRun grid config req kernel fuel
    let events := gpu.launchAndRunEvents grid config req kernel fuel
    (∀ after,
      outcome = Option.some (.ok after) →
      dispatched events = grid.blocks ∧
        (∀ event ∈ allocations events, event.1 < gpu.sms.length) ∧
        (∀ event ∈ releases events, Finished grid event) ∧
        (∀ smId,
          (allocatedOn smId events).Perm (releasedOn smId events)) ∧
        after.remaining = []) ∧
      (outcome = Option.some (.error .impossibleBlock) →
        ∃ block,
          grid.blocks[(dispatched events).length]? = Option.some block ∧
            SM.fitsEmpty block config req = false) ∧
      ((∃ block ∈ grid.blocks, SM.fitsEmpty block config req = false) →
        ∀ after, outcome ≠ Option.some (.ok after)) := by
  dsimp only
  have positive : 0 < gpu.sms.length := List.length_pos_of_ne_nil some
  refine ⟨fun after ran => ?_, fun ran => ?_, fun impossible after ran => ?_⟩
  · obtain ⟨tracked, ended⟩ := launchAndRun_tracked wellFormed ran
    obtain ⟨none, vacant⟩ := ended positive unstarted
    have order := tracked.order
    rw [none, List.append_nil] at order
    refine
      ⟨order, fun event member => (tracked.allocations event member).1,
        fun event member => (tracked.releases event member).2,
        fun smId => ?_, none⟩
    by_cases inside : smId < gpu.sms.length
    · have found :=
        List.getElem?_eq_getElem (tracked.smCount.symm ▸ inside)
      have ledger := (tracked.sms smId _ found).ledger
      rwa [vacant _ (List.mem_of_getElem? found), List.map_nil,
        List.append_nil] at ledger
    · rw [allocatedOn_eq_nil, releasedOn_eq_nil]
      · intro event member
        have onSm := (tracked.releases event member).1
        omega
      · intro event member
        have onSm := (tracked.allocations event member).1
        omega
  · obtain ⟨block, rest, order, impossible⟩ :=
      launchAndRun_error wellFormed ran
    refine ⟨block, ?_, impossible⟩
    rw [← order, List.getElem?_append_right (Nat.le_refl _), Nat.sub_self]
    rfl
  · obtain ⟨tracked, ended⟩ := launchAndRun_tracked wellFormed ran
    obtain ⟨none, _⟩ := ended positive unstarted
    obtain ⟨block, member, isImpossible⟩ := impossible
    have order := tracked.order
    rw [none, List.append_nil] at order
    rw [← order] at member
    obtain ⟨event, isAllocation, rfl⟩ := List.mem_map.mp member
    rw [(tracked.allocations event isAllocation).2] at isImpossible
    cases isImpossible

/-! ## Two grids -/

/-- A GPU with one multiprocessor. -/
def single (config : SystemConfig) : GPU Scheduler where
  sms := [SM.vacantWith .greedy]
  l2Cache := (MemorySystem.minimal 1).l2Cache
  globalMemory := .new 1
  config := config

/-- Room for one block at a time. -/
def narrowConfig : SystemConfig where
  numSms := 1
  warpSize := 1
  blockSize := 1
  maxThreadsPerSm := 1
  maxBlocksPerSm := 1
  maxSharedMemoryPerSm := 1
  maxRegistersPerSm := 32

/-- Blocks of one thread each are a well-formed grid. -/
theorem narrow_wellFormed
    (blockIds : List Nat)
    (distinct : blockIds.Nodup) :
    Grid.WellFormed ⟨blockIds.map fun blockId => .narrow blockId 1⟩ where
  distinct := by
    rw [List.map_map]
    have ids :
        (ThreadBlock.blockId ∘ fun blockId => ThreadBlock.narrow blockId 1) =
          id :=
      rfl
    rwa [ids, List.map_id]
  blocks := by
    intro block member
    obtain ⟨blockId, _, rfl⟩ := List.mem_map.mp member
    exact
      ⟨List.cons_ne_nil _ _, ThreadBlock.narrow_wellFormed blockId 1⟩

/-- An outcome that is not an exception is a normal return. -/
theorem returns_of_any
    {outcome : Option (Except SimError (GPU σ))}
    (returns :
      outcome.any (fun result => result.toOption.isSome) = true) :
    ∃ after, outcome = some (.ok after) := by
  cases outcome with
  | none => cases returns
  | some result =>
      cases result with
      | error error => cases returns
      | ok after => exact ⟨after, rfl⟩

/-- Three blocks follow each other on one multiprocessor. -/
theorem every_block_dispatched_once_three_waves :
    ∃ after,
      (single narrowConfig).launchAndRun
            ⟨[.narrow 4 1, .narrow 2 1, .narrow 9 1]⟩ narrowConfig ⟨32, 0⟩
            ⟨[⟨.mov, 0, -1, -1, 5⟩], by decide⟩ 10 =
          some (.ok after) ∧
        after.remaining = [] := by
  obtain ⟨after, ran⟩ :
      ∃ after,
        (single narrowConfig).launchAndRun
            ⟨[.narrow 4 1, .narrow 2 1, .narrow 9 1]⟩ narrowConfig ⟨32, 0⟩
            ⟨[⟨.mov, 0, -1, -1, 5⟩], by decide⟩ 10 =
          some (.ok after) := by
    refine returns_of_any ?_
    decide +kernel
  have nonempty : (single narrowConfig).sms ≠ [] := List.cons_ne_nil _ _
  have unstarted :
      Grid.Unstarted ⟨[.narrow 4 1, .narrow 2 1, .narrow 9 1]⟩ := by
    unfold Grid.Unstarted
    decide
  have dispatches :=
    every_block_dispatched_once nonempty
      (narrow_wellFormed [4, 2, 9] (by decide)) unstarted narrowConfig
      ⟨32, 0⟩ ⟨[⟨.mov, 0, -1, -1, 5⟩], by decide⟩ 10
  exact ⟨after, ran, (dispatches.1 after ran).2.2.2.2⟩

/-- Blocks whose warps are completed before the launch. -/
def completedBlock (blockId : Nat) : ThreadBlock where
  blockId := blockId
  warps := (ThreadBlock.narrow blockId 1).warps.map Warp.setCompleted

/-- Completed warps do not make a block malformed. -/
theorem completedBlock_wellFormed
    (blockId : Nat) :
    (completedBlock blockId).WellFormed := by
  intro warp member
  obtain ⟨original, isOriginal, rfl⟩ := List.mem_map.mp member
  exact ThreadBlock.narrow_wellFormed blockId 1 original isOriginal

/-- A completed block that is admitted last ends the run before its time. -/
theorem completed_block_ends_run :
    Grid.WellFormed ⟨[completedBlock 0, completedBlock 1, .narrow 2 1]⟩ ∧
      ∃ after,
        (single narrowConfig).launchAndRun
              ⟨[completedBlock 0, completedBlock 1, .narrow 2 1]⟩
              narrowConfig ⟨32, 0⟩ ⟨[], by decide⟩ 1 =
            some (.ok after) ∧
          after.remaining ≠ [] := by
  constructor
  · refine ⟨by decide, fun block member => ?_⟩
    simp only [List.mem_cons, List.not_mem_nil, or_false] at member
    rcases member with rfl | rfl | rfl
    · exact ⟨List.cons_ne_nil _ _, completedBlock_wellFormed 0⟩
    · exact ⟨List.cons_ne_nil _ _, completedBlock_wellFormed 1⟩
    · exact
        ⟨List.cons_ne_nil _ _, ThreadBlock.narrow_wellFormed 2 1⟩
  · have leftBehind :
        ((single narrowConfig).launchAndRun
              ⟨[completedBlock 0, completedBlock 1, .narrow 2 1]⟩
              narrowConfig ⟨32, 0⟩ ⟨[], by decide⟩ 1).any
            (fun outcome =>
              outcome.toOption.any fun after => !after.remaining.isEmpty) =
          true := by
      decide +kernel
    obtain ⟨outcome, ran, isLeft⟩ := Option.any_eq_true _ _ |>.mp leftBehind
    cases outcome with
    | error error => cases isLeft
    | ok after =>
        refine ⟨after, ran, fun none => ?_⟩
        change (!after.remaining.isEmpty) = true at isLeft
        rw [none] at isLeft
        cases isLeft

end GPU

end Dispatching

end SimSm
