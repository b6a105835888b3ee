import Mathlib.Logic.Relation
import SimSm.Gpu
import SimSm.Library.Pointwise
import SimSm.Residency
import SimSm.Tick
import SimSm.Traffic

namespace SimSm

/-!
# Conservation of memory traffic

Every access that an L1 cache misses reaches the L2 cache, nothing else does,
and nothing is ever written there.  The counters of a multiprocessor agree with
the statistics of its L1 cache.  This holds after any sequence of launches,
dispatches and ticks of any GPU.
-/

open Outcome InstructionExecutor

/-! ## One tick of a multiprocessor -/

namespace PerformanceCounter

/-- Counters that agree on the memory traffic. -/
structure SameTraffic (before after : PerformanceCounter) : Prop where
  transactions : after.memoryTransactions = before.memoryTransactions
  writebacks :
    after.dirtyEvictionWritebacks = before.dirtyEvictionWritebacks

namespace SameTraffic

theorem refl (counters : PerformanceCounter) :
    SameTraffic counters counters :=
  ⟨rfl, rfl⟩

theorem trans
    {first second third : PerformanceCounter}
    (earlier : SameTraffic first second)
    (later : SameTraffic second third) :
    SameTraffic first third :=
  ⟨later.transactions.trans earlier.transactions,
    later.writebacks.trans earlier.writebacks⟩

end SameTraffic

end PerformanceCounter

namespace SM

open PerformanceCounter (SameTraffic)

/-- Accounting for the wait of one warp counts no traffic. -/
theorem accountWarp_traffic
    (selectedId : Option Nat)
    (counters : PerformanceCounter)
    (warp : Warp) :
    SameTraffic counters (accountWarp selectedId counters warp).1 := by
  unfold accountWarp
  split
  · split
    · exact ⟨rfl, rfl⟩
    · dsimp only
      split
      · exact ⟨rfl, rfl⟩
      · exact .refl counters
  · exact .refl counters

/-- Wait accounting counts no traffic. -/
theorem accountWarps_traffic
    (selectedId : Option Nat)
    (counters : PerformanceCounter)
    (warps : List Warp) :
    SameTraffic counters (accountWarps selectedId counters warps).1 := by
  induction warps generalizing counters with
  | nil => exact .refl counters
  | cons warp rest inductionHypothesis =>
      exact
        (accountWarp_traffic selectedId counters warp).trans
          (inductionHypothesis _)

/-- Selecting a warp counts no traffic. -/
theorem accountSelection_traffic
    (sm : SM σ)
    (selected : Option Nat) :
    SameTraffic sm.counters (sm.accountSelection selected).counters := by
  have accounted :=
    accountWarps_traffic
      ((selected.bind (sm.warps[·]?)).map Warp.warpId) sm.counters sm.warps
  unfold accountSelection
  dsimp only
  split
  · exact accounted.trans ⟨rfl, rfl⟩
  · exact accounted

/-- A lost cycle counts no traffic. -/
theorem idle_traffic
    (sm : SM σ) :
    SameTraffic sm.counters sm.idle.counters := by
  unfold idle
  split
  · exact ⟨rfl, rfl⟩
  · exact .refl _

/-- A retired instruction counts no further traffic. -/
theorem retire_traffic
    (result : ExecutionResult)
    (counters : PerformanceCounter) :
    SameTraffic counters (retire result counters) := by
  have stalls (count : Nat) :
      SameTraffic counters
        ((fun counters : PerformanceCounter =>
            counters.addStall .writeConflict)^[count] counters) := by
    induction count with
    | zero => exact .refl counters
    | succ count inductionHypothesis =>
        rw [Function.iterate_succ_apply']
        exact inductionHypothesis.trans ⟨rfl, rfl⟩
  exact (stalls result.writeConflictStalls).trans ⟨rfl, rfl⟩

/-- What an executed instruction adds to the traffic counters. -/
theorem recordResult_traffic
    {inst : Instruction}
    {result : ExecutionResult}
    (counters : PerformanceCounter)
    (onlyMemory :
      isMemoryOpcode inst.opcode = false → result.memoryTransactions = 0) :
    (recordResult inst result counters).memoryTransactions =
        counters.memoryTransactions + result.memoryTransactions ∧
      (recordResult inst result counters).dirtyEvictionWritebacks =
        counters.dirtyEvictionWritebacks + result.dirtyEvictions := by
  have evictions
      (counters : PerformanceCounter) :
      (if 0 < result.dirtyEvictions then
          counters.addDirtyEvictionWritebacks result.dirtyEvictions
        else
          counters).memoryTransactions = counters.memoryTransactions ∧
        (if 0 < result.dirtyEvictions then
            counters.addDirtyEvictionWritebacks result.dirtyEvictions
          else
            counters).dirtyEvictionWritebacks =
          counters.dirtyEvictionWritebacks + result.dirtyEvictions := by
    split
    · exact ⟨rfl, rfl⟩
    · rename_i none
      rw [Nat.eq_zero_of_not_pos none]
      exact ⟨rfl, rfl⟩
  have conflicts
      (counters : PerformanceCounter) :
      SameTraffic counters
        (if 0 < result.bankConflicts then
          counters.addBankConflictStalls result.bankConflicts
        else
          counters) := by
    split
    · exact ⟨rfl, rfl⟩
    · exact .refl counters
  have transactions :
      (if isMemoryOpcode inst.opcode then
          counters.incrementMemoryInstructions.addMemoryTransactions
            result.memoryTransactions
        else
          counters).memoryTransactions =
          counters.memoryTransactions + result.memoryTransactions ∧
        (if isMemoryOpcode inst.opcode then
            counters.incrementMemoryInstructions.addMemoryTransactions
              result.memoryTransactions
          else
            counters).dirtyEvictionWritebacks =
          counters.dirtyEvictionWritebacks := by
    split
    · exact ⟨rfl, rfl⟩
    · rename_i notMemory
      rw [Bool.not_eq_true] at notMemory
      rw [onlyMemory notMemory]
      exact ⟨rfl, rfl⟩
  have middle := conflicts
    (if isMemoryOpcode inst.opcode then
      counters.incrementMemoryInstructions.addMemoryTransactions
        result.memoryTransactions
    else
      counters)
  constructor
  · exact
      ((evictions _).1.trans middle.transactions).trans transactions.1
  · refine (evictions _).2.trans ?_
    rw [middle.writebacks, transactions.2]

/-- The active lanes of the shared-memory instruction that a tick issues. -/
def tickLanes [WarpScheduler σ] (kernel : Kernel) (sm : SM σ) : Nat :=
  match sm.issued? with
  | none => 0
  | some (_, warp) =>
      match kernel.fetch? warp.warpPc with
      | none => 0
      | some inst => sharedLanes inst warp

/-- A tick counts the traffic of the one instruction that it issues. -/
theorem tick_served
    [WarpScheduler σ]
    {kernel : Kernel}
    {sm after : SM σ}
    {memory memory' : MemorySystem}
    (ran : sm.tick kernel memory = .ok (after, memory')) :
    ∃ tally,
      MemorySystem.Served memory memory' tally ∧
        after.counters.memoryTransactions =
          sm.counters.memoryTransactions + tally.accesses +
            sm.tickLanes kernel ∧
        after.counters.dirtyEvictionWritebacks =
          sm.counters.dirtyEvictionWritebacks + tally.dirtyEvictions := by
  have quiet
      (nothing : sm.tickLanes kernel = 0)
      (same : memory' = memory)
      (traffic : SameTraffic sm.counters after.counters) :
      ∃ tally,
        MemorySystem.Served memory memory' tally ∧
          after.counters.memoryTransactions =
            sm.counters.memoryTransactions + tally.accesses +
              sm.tickLanes kernel ∧
          after.counters.dirtyEvictionWritebacks =
            sm.counters.dirtyEvictionWritebacks +
              tally.dirtyEvictions := by
    subst same
    refine ⟨.none, .of_sameCaches rfl rfl rfl, ?_, traffic.writebacks⟩
    rw [nothing]
    exact traffic.transactions
  have nothingIssued
      (nothing : sm.issued? = none) :
      sm.tickLanes kernel = 0 := by
    rw [tickLanes, nothing]
  have stalls : SameTraffic sm.counters sm.tickStalls.counters :=
    ⟨rfl, rfl⟩
  have accounted : SameTraffic sm.counters sm.accounted.counters :=
    stalls.trans (accountSelection_traffic sm.tickStalls sm.selected?)
  cases ticking ran with
  | completed done =>
      exact
        quiet (nothingIssued (by simp [issued?, done])) rfl (.refl _)
  | unscheduled _ unscheduled =>
      exact
        quiet
          (nothingIssued (by simp [issued?, selected?, unscheduled])) rfl
          (stalls.trans ⟨rfl, rfl⟩)
  | idle _ _ nothing =>
      exact
        quiet (nothingIssued nothing) rfl
          (accounted.trans (idle_traffic sm.accounted))
  | issued uncompleted scheduled selected issues =>
      rename_i index warp
      have counts := issue_counters issues
      generalize after.counters = counters at counts quiet
      cases counts with
      | pastEnd outside =>
          refine quiet ?_ rfl accounted
          simp only [tickLanes, selected, outside]
      | executed fetched executes =>
          rename_i inst result executed
          obtain ⟨tally, served, evictions, transactions⟩ :=
            execute_served executes
          obtain ⟨recorded, writtenBack⟩ :=
            @recordResult_traffic inst result sm.accounted.counters
              fun notMemory => transactions_of_not_memory notMemory executes
          have retired :=
            retire_traffic result
              (recordResult inst result sm.accounted.counters)
          refine ⟨tally, served, ?_, ?_⟩
          · have lanes : sm.tickLanes kernel = sharedLanes inst warp := by
              simp only [tickLanes, selected, fetched]
            rw [retired.transactions, recorded, transactions, lanes,
              accounted.transactions, Nat.add_assoc]
          · rw [retired.writebacks, writtenBack, evictions,
              accounted.writebacks]

/-- Multiprocessors that agree on their caches and the traffic counted. -/
structure SameMemory (before after : SM σ) : Prop where
  l1Cache : after.l1Cache = before.l1Cache
  traffic : SameTraffic before.counters after.counters

namespace SameMemory

theorem refl (sm : SM σ) : SameMemory sm sm :=
  ⟨rfl, .refl _⟩

theorem trans
    {first second third : SM σ}
    (earlier : SameMemory first second)
    (later : SameMemory second third) :
    SameMemory first third :=
  ⟨later.l1Cache.trans earlier.l1Cache, earlier.traffic.trans later.traffic⟩

/-- Allocating a block uses no memory. -/
theorem allocateBlock
    (sm : SM σ)
    (block : ThreadBlock)
    (req : KernelResourceRequirements) :
    SameMemory sm (sm.allocateBlock block req) := by
  have added
      (warps : List Warp)
      (start : SM σ)
      (reached : SameMemory sm start) :
      SameMemory sm
        (warps.foldl
          (fun sm warp =>
            let added := sm.addWarp warp
            { added with
              counters :=
                added.counters.initializeWarpIssueCount warp.warpId })
          start) := by
    induction warps generalizing start with
    | nil => exact reached
    | cons warp rest inductionHypothesis =>
        exact inductionHypothesis _ (reached.trans ⟨rfl, rfl, rfl⟩)
  exact added block.warps _ ⟨rfl, rfl, rfl⟩

/-- Releasing blocks uses no memory. -/
theorem releaseCompletedBlocks (sm : SM σ) :
    SameMemory sm sm.releaseCompletedBlocks := by
  have released
      (blocks kept : List ResidentBlock)
      (start : SM σ) :
      SameMemory start (start.releaseLoop kept blocks) := by
    induction blocks generalizing kept start with
    | nil => exact ⟨rfl, rfl, rfl⟩
    | cons block rest inductionHypothesis =>
        unfold releaseLoop
        split
        · have freed : SameMemory start (start.releaseBlock block) :=
            ⟨rfl, rfl, rfl⟩
          exact freed.trans (inductionHypothesis _ _)
        · exact inductionHypothesis _ _
  exact released sm.residentBlocks [] sm

end SameMemory

end SM

/-! ## The whole GPU -/

namespace GPU

open SM (SameMemory)

/-- Dispatching uses no memory. -/
theorem dispatch_sameMemory
    {config : SystemConfig}
    {req : KernelResourceRequirements}
    {sm after : SM σ}
    {pending rest : List ThreadBlock}
    (ran : dispatch config req sm pending = .ok (after, rest)) :
    SameMemory sm after := by
  induction pending generalizing sm with
  | nil =>
      cases ran
      exact .refl _
  | cons block others inductionHypothesis =>
      unfold dispatch at ran
      split at ran
      · exact (SameMemory.allocateBlock sm block req).trans
          (inductionHypothesis ran)
      · split at ran
        · cases ran
        · cases ran
          exact .refl _

/-- Dispatching to all multiprocessors uses no memory. -/
theorem dispatchAll_sameMemory
    {config : SystemConfig}
    {req : KernelResourceRequirements}
    {prepare : SM σ → SM σ}
    (prepares : ∀ sm, SameMemory sm (prepare sm))
    {sms after : List (SM σ)}
    {pending rest : List ThreadBlock}
    (ran : dispatchAll config req prepare sms pending = .ok (after, rest)) :
    List.Forall₂ SameMemory sms after := by
  induction sms generalizing pending after with
  | nil =>
      cases ran
      exact .nil
  | cons sm others inductionHypothesis =>
      obtain ⟨⟨first, left⟩, dispatched, later⟩ := except_bind_ok.mp ran
      obtain ⟨⟨dispatchedOthers, last⟩, all, returned⟩ :=
        except_bind_ok.mp later
      cases returned
      exact
        .cons ((prepares sm).trans (dispatch_sameMemory dispatched))
          (inductionHypothesis all)

/-- Two GPUs with the same caches and the same traffic counted. -/
structure SameHierarchy (before after : GPU σ) : Prop where
  sms : List.Forall₂ SameMemory before.sms after.sms
  l2Cache : after.l2Cache = before.l2Cache

theorem loadBlocks_sameHierarchy
    {gpu after : GPU σ}
    {prepare : SM σ → SM σ}
    (prepares : ∀ sm, SameMemory sm (prepare sm))
    (ran : gpu.loadBlocks prepare = .ok after) :
    SameHierarchy gpu after := by
  obtain ⟨⟨sms, pending⟩, dispatched, returned⟩ := except_bind_ok.mp ran
  cases returned
  exact ⟨dispatchAll_sameMemory prepares dispatched, rfl⟩

/-- A GPU with the shared-memory lanes that each multiprocessor executed. -/
structure Metered (σ : Type) where
  gpu : GPU σ
  sharedLanes : Nat → Nat

/-- A launch, a dispatch, or a tick of one multiprocessor. -/
inductive Step [WarpScheduler σ] : Metered σ → Metered σ → Prop where
  | launch
      {before : Metered σ}
      {grid : Grid}
      {config : SystemConfig}
      {req : KernelResourceRequirements}
      {after : GPU σ}
      (launched : before.gpu.launchKernel grid config req = .ok after) :
      Step before ⟨after, before.sharedLanes⟩
  | refill
      {before : Metered σ}
      {after : GPU σ}
      (refilled : before.gpu.refill = .ok after) :
      Step before ⟨after, before.sharedLanes⟩
  | tick
      {before : Metered σ}
      {kernel : Kernel}
      {index : Nat}
      {sm after : SM σ}
      {l2Cache : Cache}
      {globalMemory : GlobalMemory}
      (found : before.gpu.sms[index]? = some sm)
      (ticked :
        tickSm kernel before.gpu.config.memoryAccessConfig sm
            before.gpu.l2Cache before.gpu.globalMemory =
          .ok (after, l2Cache, globalMemory)) :
      Step before
        ⟨{ before.gpu with
            sms := before.gpu.sms.set index after
            l2Cache := l2Cache
            globalMemory := globalMemory },
          Function.update before.sharedLanes index
            (before.sharedLanes index + sm.tickLanes kernel)⟩

/-- Memory traffic is conserved across the hierarchy. -/
structure Conserved (state : Metered σ) : Prop where
  l2Accesses :
    state.gpu.l2Cache.stats.accesses =
      (state.gpu.sms.map fun sm => sm.l1Cache.stats.misses).sum
  l2Clean : state.gpu.l2Cache.Clean
  l2DirtyEvictions : state.gpu.l2Cache.stats.dirtyEvictions = 0
  writebacks :
    (state.gpu.sms.map fun sm => sm.counters.dirtyEvictionWritebacks).sum =
      (state.gpu.sms.map fun sm => sm.l1Cache.stats.dirtyEvictions).sum
  transactions :
    ∀ index sm,
      state.gpu.sms[index]? = some sm →
      sm.counters.memoryTransactions =
        sm.l1Cache.stats.accesses + state.sharedLanes index

/-- A GPU as it is built: fresh caches, and nothing counted. -/
structure Fresh (gpu : GPU σ) : Prop where
  l1Caches :
    ∀ sm ∈ gpu.sms,
      ∃ numSets associativity lineSize policyName rng,
        Cache.new numSets associativity lineSize policyName rng =
          .ok sm.l1Cache
  counters : ∀ sm ∈ gpu.sms, sm.counters = {}
  l2Cache :
    ∃ numSets associativity lineSize policyName rng,
      Cache.new numSets associativity lineSize policyName rng =
        .ok gpu.l2Cache

/-- Nothing is counted at first. -/
theorem Fresh.conserved
    {gpu : GPU σ}
    (fresh : gpu.Fresh) :
    Conserved ⟨gpu, fun _ => 0⟩ := by
  obtain ⟨_, _, _, _, _, built⟩ := fresh.l2Cache
  obtain ⟨clean, l2Stats⟩ := Cache.new_clean built
  have l1Stats (sm : SM σ) (member : sm ∈ gpu.sms) :
      sm.l1Cache.stats = {} := by
    obtain ⟨_, _, _, _, _, built⟩ := fresh.l1Caches sm member
    exact (Cache.new_clean built).2
  have zeros
      {count : SM σ → Nat}
      (isZero : ∀ sm ∈ gpu.sms, count sm = 0) :
      (gpu.sms.map count).sum = 0 := by
    rw [List.sum_eq_zero_iff_forall_eq_nat]
    intro value member
    obtain ⟨sm, isSm, rfl⟩ := List.mem_map.mp member
    exact isZero sm isSm
  refine ⟨?_, clean, ?_, ?_, ?_⟩
  · rw [l2Stats, zeros fun sm member => by rw [l1Stats sm member]]
  · rw [l2Stats]
  · rw [zeros fun sm member => by rw [fresh.counters sm member],
      zeros fun sm member => by rw [l1Stats sm member]]
  · intro index sm found
    have member := List.mem_of_getElem? found
    rw [fresh.counters sm member, l1Stats sm member]
    rfl

/-- Moves that use no memory keep the traffic conserved. -/
theorem Conserved.of_sameHierarchy
    {gpu after : GPU σ}
    {sharedLanes : Nat → Nat}
    (conserved : Conserved ⟨gpu, sharedLanes⟩)
    (same : gpu.SameHierarchy after) :
    Conserved ⟨after, sharedLanes⟩ := by
  obtain ⟨l2Accesses, l2Clean, l2Evictions, writebacks, transactions⟩ :=
    conserved
  have sums
      {count : SM σ → Nat}
      (keeps : ∀ sm other, SameMemory sm other → count other = count sm) :
      (after.sms.map count).sum = (gpu.sms.map count).sum :=
    congrArg List.sum
      (Pointwise.map_eq same.sms fun kept => keeps _ _ kept)
  refine ⟨?_, ?_, ?_, ?_, ?_⟩
  · rw [same.l2Cache, l2Accesses,
      sums fun _ _ kept => by rw [kept.l1Cache]]
  · rw [same.l2Cache]
    exact l2Clean
  · rw [same.l2Cache]
    exact l2Evictions
  · rw [sums fun _ _ kept => kept.traffic.writebacks,
      sums fun _ _ kept => by rw [kept.l1Cache]]
    exact writebacks
  · intro index sm found
    obtain ⟨former, foundFormer, kept⟩ := Pointwise.origin same.sms found
    rw [kept.traffic.transactions, kept.l1Cache]
    exact transactions index former foundFormer

/-- A tick against the shared level of the hierarchy conserves the traffic. -/
theorem Conserved.tick
    [WarpScheduler σ]
    {gpu : GPU σ}
    {sharedLanes : Nat → Nat}
    {kernel : Kernel}
    {index : Nat}
    {sm after : SM σ}
    {l2Cache : Cache}
    {globalMemory : GlobalMemory}
    (conserved : Conserved ⟨gpu, sharedLanes⟩)
    (found : gpu.sms[index]? = some sm)
    (ticked :
      tickSm kernel gpu.config.memoryAccessConfig sm gpu.l2Cache
          gpu.globalMemory =
        .ok (after, l2Cache, globalMemory)) :
    Conserved
      ⟨{ gpu with
          sms := gpu.sms.set index after
          l2Cache := l2Cache
          globalMemory := globalMemory },
        Function.update sharedLanes index
          (sharedLanes index + sm.tickLanes kernel)⟩ := by
  obtain ⟨⟨middle, memory⟩, ran, returned⟩ := except_bind_ok.mp ticked
  cases returned
  obtain ⟨tally, served, transactions, writebacks⟩ := SM.tick_served ran
  obtain ⟨_, accesses, _, misses, evictions, l2Accesses, _, _, _, clean⟩ :=
    served
  obtain ⟨isClean, l2Evictions⟩ := clean conserved.l2Clean
  have inside : index < gpu.sms.length :=
    (List.getElem?_eq_some_iff.mp found).1
  have exchanged (summand : SM σ → Nat) :=
    @Pointwise.sum_map_set _ summand _ _ _ found
      { middle with
        sharedMemory := memory.sharedMemory, l1Cache := memory.l1Cache }
  have formerly := conserved.transactions index sm found
  dsimp only at accesses misses evictions l2Accesses l2Evictions
  refine ⟨?_, isClean, ?_, ?_, ?_⟩
  · have sum := exchanged fun sm => sm.l1Cache.stats.misses
    have former := conserved.l2Accesses
    dsimp only at sum former ⊢
    omega
  · exact l2Evictions.trans conserved.l2DirtyEvictions
  · have counted := exchanged fun sm => sm.counters.dirtyEvictionWritebacks
    have evicted := exchanged fun sm => sm.l1Cache.stats.dirtyEvictions
    have former := conserved.writebacks
    dsimp only at counted evicted former ⊢
    omega
  · intro position other isOther
    dsimp only at isOther formerly ⊢
    by_cases same : position = index
    · subst same
      rw [List.getElem?_set_self inside, Option.some.injEq] at isOther
      subst isOther
      rw [Function.update_self]
      dsimp only
      omega
    · rw [List.getElem?_set_ne (Ne.symm same)] at isOther
      rw [Function.update_of_ne same]
      exact conserved.transactions position other isOther

/-- Every step conserves the traffic. -/
theorem Step.conserved
    [WarpScheduler σ]
    {before after : Metered σ}
    (step : Step before after)
    (conserved : Conserved before) :
    Conserved after := by
  cases step with
  | launch launched =>
      refine Conserved.of_sameHierarchy conserved ?_
      obtain ⟨sms, l2Cache⟩ :=
        @loadBlocks_sameHierarchy σ _ _ SM.clearWarps
          (fun _ => ⟨rfl, rfl, rfl⟩) launched
      exact ⟨sms, l2Cache⟩
  | refill refilled =>
      exact
        Conserved.of_sameHierarchy conserved
          (loadBlocks_sameHierarchy SameMemory.releaseCompletedBlocks
            refilled)
  | tick found ticked => exact Conserved.tick conserved found ticked

/-! ## The run loop takes these steps -/

/-- A GPU whose multiprocessors and shared level have been replaced. -/
def withSms
    (gpu : GPU σ)
    (sms : List (SM σ))
    (l2Cache : Cache)
    (globalMemory : GlobalMemory) :
    GPU σ :=
  { gpu with
    sms := sms, l2Cache := l2Cache, globalMemory := globalMemory }

/-- Some steps lead from one GPU to another, whatever was metered before. -/
def Reaches [WarpScheduler σ] (before after : GPU σ) : Prop :=
  ∀ sharedLanes, ∃ sharedLanes',
    Relation.ReflTransGen Step ⟨before, sharedLanes⟩ ⟨after, sharedLanes'⟩

theorem Reaches.refl [WarpScheduler σ] (gpu : GPU σ) : Reaches gpu gpu :=
  fun sharedLanes => ⟨sharedLanes, .refl⟩

theorem Reaches.trans
    [WarpScheduler σ]
    {first second third : GPU σ}
    (earlier : Reaches first second)
    (later : Reaches second third) :
    Reaches first third := by
  intro sharedLanes
  obtain ⟨middleLanes, toMiddle⟩ := earlier sharedLanes
  obtain ⟨lastLanes, toLast⟩ := later middleLanes
  exact ⟨lastLanes, toMiddle.trans toLast⟩

/-- The tick phase of an iteration ticks one multiprocessor after another. -/
theorem tickSms_reaches
    [WarpScheduler σ]
    {kernel : Kernel}
    {gpu : GPU σ}
    {ticked rest after : List (SM σ)}
    {l2Cache l2Cache' : Cache}
    {globalMemory globalMemory' : GlobalMemory}
    {allDone : Bool}
    (ran :
      tickSms kernel gpu.config.memoryAccessConfig rest l2Cache
          globalMemory =
        .ok (allDone, after, l2Cache', globalMemory')) :
    Reaches (gpu.withSms (ticked ++ rest) l2Cache globalMemory)
      (gpu.withSms (ticked ++ after) l2Cache' globalMemory') := by
  induction rest generalizing ticked after l2Cache globalMemory allDone with
  | nil =>
      cases ran
      exact .refl _
  | cons sm others inductionHypothesis =>
      unfold tickSms at ran
      split at ran
      · obtain ⟨⟨_, tickedOthers, _, _⟩, later, returned⟩ :=
          except_bind_ok.mp ran
        cases returned
        have reaches := @inductionHypothesis (ticked ++ [sm]) _ _ _ _ later
        rw [List.append_assoc, List.append_assoc] at reaches
        exact reaches
      · obtain ⟨⟨tickedSm, middleCache, middleMemory⟩, now, next⟩ :=
          except_bind_ok.mp ran
        obtain ⟨⟨_, tickedOthers, _, _⟩, later, returned⟩ :=
          except_bind_ok.mp next
        cases returned
        have found :
            (ticked ++ sm :: others)[ticked.length]? = some sm := by
          rw [List.getElem?_append_right (Nat.le_refl _), Nat.sub_self]
          rfl
        have first :
            Reaches
              (gpu.withSms (ticked ++ sm :: others) l2Cache globalMemory)
              (gpu.withSms (ticked ++ tickedSm :: others) middleCache
                middleMemory) := by
          intro sharedLanes
          refine
            ⟨Function.update sharedLanes ticked.length
                (sharedLanes ticked.length + sm.tickLanes kernel),
              .single ?_⟩
          have step :=
            @Step.tick σ _
              ⟨gpu.withSms (ticked ++ sm :: others) l2Cache globalMemory,
                sharedLanes⟩
              kernel ticked.length sm tickedSm middleCache middleMemory
              found now
          have placed :
              (ticked ++ sm :: others).set ticked.length tickedSm =
                ticked ++ tickedSm :: others := by
            rw [List.set_append_right _ _ (Nat.le_refl _), Nat.sub_self]
            rfl
          unfold withSms at step ⊢
          rw [placed] at step
          exact step
        have reaches :=
          @inductionHypothesis (ticked ++ [tickedSm]) _ _ _ _ later
        rw [List.append_assoc, List.append_assoc] at reaches
        exact first.trans reaches

/-- An iteration of the run loop is a dispatch and some ticks. -/
theorem iterate_reaches
    [WarpScheduler σ]
    {kernel : Kernel}
    {gpu after : GPU σ}
    {allDone : Bool}
    (ran : gpu.iterate kernel = .ok (allDone, after)) :
    Reaches gpu after := by
  obtain ⟨refilled, refills, rest⟩ := except_bind_ok.mp ran
  obtain ⟨⟨_, sms, l2Cache, globalMemory⟩, ticks, returned⟩ :=
    except_bind_ok.mp rest
  cases returned
  have first : Reaches gpu refilled :=
    fun sharedLanes => ⟨sharedLanes, .single (.refill refills)⟩
  exact first.trans (@tickSms_reaches σ _ kernel refilled [] _ _ _ _ _ _ _ ticks)

/-- A run to completion is a sequence of such steps. -/
theorem runToCompletion_reaches
    [WarpScheduler σ]
    {kernel : Kernel}
    {fuel : Nat}
    {gpu after : GPU σ}
    (ran : runToCompletion kernel fuel gpu = some (.ok after)) :
    Reaches gpu after := by
  induction fuel generalizing gpu with
  | zero => cases ran
  | succ fuel inductionHypothesis =>
      unfold runToCompletion at ran
      cases iterates : gpu.iterate kernel with
      | error error =>
          rw [iterates] at ran
          cases ran
      | ok pair =>
          rcases pair with ⟨allDone, middle⟩
          rw [iterates] at ran
          cases allDone with
          | true =>
              cases ran
              exact iterate_reaches iterates
          | false =>
              exact
                (iterate_reaches iterates).trans (inductionHypothesis ran)

/-- The GPU of every configuration is fresh. -/
theorem new_fresh
    {config : SystemConfig}
    {createScheduler : SystemConfig → Except SimError σ}
    {rng : Nat → Nat → Nat → Nat}
    {gpu : GPU σ}
    (built : GPU.new config createScheduler rng = .ok gpu) :
    gpu.Fresh := by
  obtain ⟨l2Cache, l2Built, rest⟩ := except_bind_ok.mp built
  obtain ⟨sms, smsBuilt, returned⟩ := except_bind_ok.mp rest
  cases returned
  have each :
      ∀ sm ∈ sms,
        (∃ numSets associativity lineSize policyName rng,
            Cache.new numSets associativity lineSize policyName rng =
              .ok sm.l1Cache) ∧
          sm.counters = {} := by
    clear built rest l2Built
    generalize List.range config.numSms = smIds at smsBuilt
    induction smIds generalizing sms with
    | nil =>
        cases smsBuilt
        exact nofun
    | cons smId others inductionHypothesis =>
        rw [List.mapM_cons] at smsBuilt
        obtain ⟨first, firstBuilt, later⟩ := except_bind_ok.mp smsBuilt
        obtain ⟨rest, restBuilt, returned⟩ := except_bind_ok.mp later
        cases returned
        intro sm member
        rcases List.mem_cons.mp member with rfl | inRest
        · obtain ⟨empty, emptyBuilt, later⟩ := except_bind_ok.mp firstBuilt
          obtain ⟨scheduler, _, returned⟩ := except_bind_ok.mp later
          cases returned
          obtain ⟨cache, cacheBuilt, rfl⟩ := except_map_ok.mp emptyBuilt
          exact ⟨⟨_, _, _, _, _, cacheBuilt⟩, rfl⟩
        · exact inductionHypothesis _ restBuilt sm inRest
  exact
    ⟨fun sm member => (each sm member).1,
      fun sm member => (each sm member).2, ⟨_, _, _, _, _, l2Built⟩⟩

/--
Memory traffic is conserved in every state that any sequence of launches,
dispatches and ticks of a fresh GPU reaches.
-/
theorem traffic_conserved
    [WarpScheduler σ]
    {gpu : GPU σ}
    (fresh : gpu.Fresh)
    {state : Metered σ}
    (run : Relation.ReflTransGen Step ⟨gpu, fun _ => 0⟩ state) :
    Conserved state := by
  induction run with
  | refl => exact fresh.conserved
  | tail _ step inductionHypothesis =>
      exact step.conserved inductionHypothesis

/-- Two multiprocessors with one resident block each. -/
def pairConfig : SystemConfig where
  numSms := 2
  warpSize := 1
  blockSize := 1
  maxThreadsPerSm := 1
  maxBlocksPerSm := 1
  maxSharedMemoryPerSm := 1
  maxRegistersPerSm := 32
  l1Sets := 1
  l1Associativity := 1
  l2Sets := 1
  l2Associativity := 1
  globalMemorySize := 64

/-- Two stores whose lines evict each other, and a store to shared memory. -/
def evictKernel : Kernel where
  instructions :=
    [⟨.store, -1, 0, -1, 0⟩, ⟨.store, -1, 0, -1, 32⟩,
      ⟨.store, -1, 0, -1, 0x10000000⟩]
  lengthFits := by decide

/-- A GPU that has run a kernel, if it could be built and run. -/
def ranGpu (fuel : Nat) : Option (GPU Scheduler × GPU Scheduler) :=
  ((GPU.new pairConfig SchedulerFactory.createScheduler
      fun _ _ _ => 0).toOption).bind fun gpu =>
    ((gpu.launchKernel ⟨[.narrow 0 1, .narrow 1 1]⟩ pairConfig
        ⟨0, 0⟩).toOption).bind fun launched =>
      (launched.runToCompletion evictKernel fuel).bind fun outcome =>
        outcome.toOption.map fun after => (gpu, after)

/-- The traffic of a GPU: L2 accesses, then what each SM has counted. -/
def traffic (gpu : GPU σ) : Nat × List (Nat × Nat × Nat × Nat) :=
  (gpu.l2Cache.stats.accesses,
    gpu.sms.map fun sm =>
      (sm.l1Cache.stats.misses, sm.l1Cache.stats.dirtyEvictions,
        sm.counters.dirtyEvictionWritebacks,
        sm.counters.memoryTransactions))

/-- Both multiprocessors miss twice, write one line back and share a GPU. -/
theorem traffic_conserved_two_sms :
    ∃ (gpu after : GPU Scheduler) (sharedLanes : Nat → Nat),
      GPU.new pairConfig SchedulerFactory.createScheduler
          (fun _ _ _ => 0) = .ok gpu ∧
        traffic after = (4, [(2, 1, 1, 3), (2, 1, 1, 3)]) ∧
        Conserved ⟨after, sharedLanes⟩ := by
  have computed :
      (ranGpu 300).map (fun pair => traffic pair.2) =
        some (4, [(2, 1, 1, 3), (2, 1, 1, 3)]) := by
    decide +kernel
  obtain ⟨⟨gpu, after⟩, ran, shape⟩ := Option.map_eq_some_iff.mp computed
  obtain ⟨built, isBuilt, ran⟩ := Option.bind_eq_some_iff.mp ran
  obtain ⟨launched, isLaunched, ran⟩ := Option.bind_eq_some_iff.mp ran
  obtain ⟨outcome, isOutcome, ran⟩ := Option.bind_eq_some_iff.mp ran
  obtain ⟨final, isFinal, same⟩ := Option.map_eq_some_iff.mp ran
  cases same
  have ofOption
      {ε α : Type}
      {result : Except ε α}
      {value : α}
      (isSome : result.toOption = some value) :
      result = .ok value := by
    cases result with
    | error error => cases isSome
    | ok found =>
        cases isSome
        rfl
  have gpuBuilt := ofOption isBuilt
  have outcomeOk := ofOption isFinal
  rw [outcomeOk] at isOutcome
  obtain ⟨sharedLanes, steps⟩ :=
    runToCompletion_reaches isOutcome fun _ => 0
  have launch :
      Step ⟨gpu, fun _ => 0⟩ ⟨launched, fun _ => 0⟩ :=
    .launch (ofOption isLaunched)
  exact
    ⟨gpu, after, sharedLanes, gpuBuilt, shape,
      traffic_conserved (new_fresh gpuBuilt) (.head launch steps)⟩

end GPU

end SimSm
