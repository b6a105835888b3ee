import Mathlib.Algebra.BigOperators.Fin
import Mathlib.Algebra.Order.Chebyshev
import SimSm.Amat
import SimSm.Analyzer
import SimSm.Occupancy
import SimSm.Reported

namespace SimSm

/-!
# One simulation of a sweep

The sweep engine runs every configuration on a GPU of its own and condenses the
counters of all multiprocessors into one result.  The source's doubles are exact
rationals here, so what is stated of rates is stated before rounding.
-/

open Outcome PerformanceCounter

namespace PerformanceCounter

/--
Jain's index of the issue counts, in exact arithmetic; the squares are products
in `size_t`.
-/
def getJainsFairnessIndex (counters : PerformanceCounter) : ℚ :=
  if counters.warpIssueCounts.isEmpty then
    0
  else
    let counts := counters.warpIssueCounts.map Prod.snd
    let sum : ℚ := (counts.sum : Nat)
    let sumSq : ℚ := ((counts.map fun count => count * count % 2 ^ 64).sum : Nat)
    if sumSq = 0 then
      0
    else
      sum * sum / (counts.length * sumSq)

end PerformanceCounter

namespace SweepEngine

/-- A rate, which is zero when there is nothing to divide by. -/
def rate (part whole : Nat) : ℚ :=
  if 0 < whole then (part : ℚ) / whole else 0

/-- One counter of all multiprocessors, added up. -/
def total {σ : Type} (gpu : GPU σ) (count : SM σ → Nat) : Nat :=
  (gpu.sms.map count).sum

/-- The largest value of one counter. -/
def largest {σ : Type} (gpu : GPU σ) (count : SM σ → Nat) : Nat :=
  (gpu.sms.map count).foldl max 0

/-- Condense what a GPU has counted into a result. -/
def condense
    {σ : Type}
    (config : SystemConfig)
    (configIdx : Nat)
    (gpu : GPU σ)
    (occ : OccupancyResult) :
    SimulationResult :=
  let totalCycles := largest gpu fun sm => sm.counters.cycles
  let instructions := total gpu fun sm => sm.counters.instructionsRetired
  let memInsts := total gpu fun sm => sm.counters.memoryInstructions
  let l1Hits := total gpu fun sm => sm.l1Cache.stats.hits
  let l1Misses := total gpu fun sm => sm.l1Cache.stats.misses
  let l2Hits := gpu.l2Cache.stats.hits
  let l2Misses := gpu.l2Cache.stats.misses
  let dirtyEvicts :=
    total gpu fun sm => sm.counters.dirtyEvictionWritebacks
  let bankConflicts := total gpu fun sm => sm.counters.bankConflictStalls
  let fairness : ℚ :=
    (gpu.sms.map fun sm => sm.counters.getJainsFairnessIndex).sum
  let ipc := rate instructions totalCycles
  { config := config
    runName := "Config_" ++ toString configIdx
    totalCycles := totalCycles
    instructionsRetired := instructions
    memoryInstructions := memInsts
    memoryTransactions :=
      total gpu fun sm => sm.counters.memoryTransactions
    l1Hits := l1Hits
    l1Misses := l1Misses
    l2Hits := l2Hits
    l2Misses := l2Misses
    bankConflicts := bankConflicts
    dirtyEvictions := dirtyEvicts
    noReadyWarpCycles :=
      total gpu fun sm => sm.counters.stallReasons .noReadyWarp
    maxWarpWaitCycles :=
      largest gpu fun sm => sm.counters.maxWarpWaitCycles
    starvationEvents :=
      total gpu fun sm => sm.counters.starvationEvents
    ipc := ipc
    amat := amat config l1Hits l1Misses l2Hits l2Misses dirtyEvicts
    occupancy := rate occ.residentBlocks config.maxBlocksPerSm
    fairness :=
      if 0 < gpu.sms.length then fairness / gpu.sms.length else 0
    l1HitRate := rate l1Hits (l1Hits + l1Misses)
    l2HitRate := rate l2Hits (l2Hits + l2Misses)
    bankConflictRate := rate bankConflicts memInsts
    ipcUtilization :=
      if 0 < config.numSms then ipc / config.numSms else 0 }

/-- Simulate one configuration; `none` means that the fuel ran out. -/
def executeConfiguration
    (config : SystemConfig)
    (rng : Nat → Nat → Nat → Nat)
    (kernel : Kernel)
    (grid : Grid)
    (req : KernelResourceRequirements)
    (configIdx fuel : Nat) :
    ExceptT SimError Option SimulationResult := do
  let gpu ←
    ExceptT.mk (some (GPU.new config SchedulerFactory.createScheduler rng))
  let after ← ExceptT.mk (gpu.launchAndRun grid config req kernel fuel)
  let occ ← ExceptT.mk (some (OccupancyCalculator.compute config req))
  pure (condense config configIdx after occ)

/-- Simulate every configuration of a sweep, up to the first that throws. -/
def runSweep
    (base : SystemConfig)
    (rng : Nat → Nat → Nat → Nat → Nat)
    (kernel : Kernel)
    (grid : Grid)
    (req : KernelResourceRequirements)
    (space : ParameterSpace)
    (fuel : Nat) :
    ExceptT SimError Option (List SimulationResult) :=
  (generateConfigurations base space).zipIdx.mapM fun entry =>
    executeConfiguration entry.1 (rng entry.2) kernel grid req entry.2 fuel

end SweepEngine

/-- What the result of a simulation can be. -/
structure SimulationResult.Consistent (result : SimulationResult) : Prop where
  noReadyWarpCycles : result.noReadyWarpCycles = 0
  instructionsRetired :
    result.instructionsRetired ≤ result.config.numSms * result.totalCycles
  memoryInstructions :
    result.memoryInstructions ≤ result.instructionsRetired
  memoryTransactions :
    result.memoryTransactions ≤ 32 * result.memoryInstructions
  l1Accesses :
    result.l1Hits + result.l1Misses ≤ result.memoryTransactions
  dirtyEvictions : result.dirtyEvictions ≤ result.l1Misses
  bankConflicts : result.bankConflicts ≤ 31 * result.memoryInstructions
  maxWarpWaitCycles : result.maxWarpWaitCycles ≤ result.totalCycles
  starvationEvents :
    0 < result.starvationEvents → 1000 < result.maxWarpWaitCycles
  ipc : result.ipc ∈ Set.Icc (0 : ℚ) result.config.numSms
  amat :
    result.amat ∈
      Set.Icc (result.config.l1Latency : ℚ)
        (result.config.l1Latency +
          (result.config.l2Latency + result.config.globalMemoryLatency) +
            result.config.writebackLatency)
  occupancy : result.occupancy ∈ Set.Icc (0 : ℚ) 1
  fairness :
    result.totalCycles < 2 ^ 32 → result.fairness ∈ Set.Icc (0 : ℚ) 1
  l1HitRate : result.l1HitRate ∈ Set.Icc (0 : ℚ) 1
  l2HitRate : result.l2HitRate ∈ Set.Icc (0 : ℚ) 1
  bankConflictRate : result.bankConflictRate ∈ Set.Icc (0 : ℚ) 31
  ipcUtilization : result.ipcUtilization ∈ Set.Icc (0 : ℚ) 1

/-! ## Rates and totals -/

/-- The square of a sum is at most the sum of the squares, as often as there are
summands. -/
theorem PerformanceCounter.sum_mul_sum_le (counts : List Nat) :
    counts.sum * counts.sum ≤
      counts.length * (counts.map fun count => count * count).sum := by
  have bound :=
    @sq_sum_le_card_mul_sum_sq _ _ _ _ _ _ Finset.univ
      fun position : Fin counts.length => counts[position.1]
  simp only [sq] at bound
  rw [Fin.sum_univ_getElem, Finset.card_univ, Fintype.card_fin,
    Fin.sum_univ_fun_getElem counts fun count => count * count] at bound
  exact bound

namespace SweepEngine

/-- A rate is between zero and a bound that its parts respect. -/
theorem rate_mem
    {part whole bound : Nat}
    (below : part ≤ bound * whole) :
    rate part whole ∈ Set.Icc (0 : ℚ) bound := by
  unfold rate
  split
  · rename_i positive
    have positiveRat : (0 : ℚ) < whole := Nat.cast_pos.mpr positive
    refine ⟨by positivity, ?_⟩
    rw [div_le_iff₀ positiveRat]
    exact_mod_cast below
  · exact ⟨le_refl _, Nat.cast_nonneg _⟩

section Totals

variable {σ : Type}
variable {gpu : GPU σ}
variable {count other : SM σ → Nat}

/-- Totals compare as their summands do. -/
theorem total_le
    {factor : Nat}
    (below : ∀ sm ∈ gpu.sms, count sm ≤ factor * other sm) :
    total gpu count ≤ factor * total gpu other := by
  unfold total
  rw [← List.sum_map_mul_left]
  exact List.sum_le_sum below

/-- Totals compare without a factor, too. -/
theorem total_le_total
    (below : ∀ sm ∈ gpu.sms, count sm ≤ other sm) :
    total gpu count ≤ total gpu other :=
  List.sum_le_sum below

/-- A maximum along a list is no less than its start and its entries. -/
theorem le_foldl_max (entries : List Nat) (start : Nat) :
    start ≤ entries.foldl max start ∧
      ∀ entry ∈ entries, entry ≤ entries.foldl max start := by
  induction entries generalizing start with
  | nil => exact ⟨Nat.le_refl _, fun _ member => (List.not_mem_nil member).elim⟩
  | cons first rest inductionHypothesis =>
      obtain ⟨above, later⟩ := inductionHypothesis (max start first)
      obtain ⟨startBelow, firstBelow⟩ := max_le_iff.mp above
      exact ⟨startBelow, List.forall_mem_cons.mpr ⟨firstBelow, later⟩⟩

/-- No multiprocessor is above the largest value. -/
theorem le_largest
    {sm : SM σ}
    (member : sm ∈ gpu.sms) :
    count sm ≤ largest gpu count :=
  (le_foldl_max _ 0).2 _ (List.mem_map_of_mem member)

/-- The largest value respects a bound of all. -/
theorem largest_le
    {bound : Nat}
    (below : ∀ sm ∈ gpu.sms, count sm ≤ bound) :
    largest gpu count ≤ bound :=
  foldl_max_le (Nat.zero_le _) (List.forall_mem_map.mpr below)

/-- The AMAT weighs the latencies by rates. -/
theorem amat_eq
    (config : SystemConfig)
    (l1Hits l1Misses l2Hits l2Misses dirtyEvicts : Nat) :
    amat config l1Hits l1Misses l2Hits l2Misses dirtyEvicts =
      config.l1Latency +
          rate l1Misses (l1Hits + l1Misses) *
            (config.l2Latency +
              rate l2Misses (l2Hits + l2Misses) *
                config.globalMemoryLatency) +
        rate dirtyEvicts (l1Hits + l1Misses) * config.writebackLatency := by
  unfold amat rate
  dsimp only
  by_cases accessed : 0 < l1Hits + l1Misses
  · simp only [if_pos accessed]
  · simp only [if_neg accessed, zero_mul, add_zero]

/-- The AMAT is between a hit and a miss with a writeback. -/
theorem amat_mem
    (config : SystemConfig)
    {l1Hits l1Misses l2Hits l2Misses dirtyEvicts : Nat}
    (evicts : dirtyEvicts ≤ l1Misses) :
    amat config l1Hits l1Misses l2Hits l2Misses dirtyEvicts ∈
      Set.Icc (config.l1Latency : ℚ)
        (config.l1Latency +
          (config.l2Latency + config.globalMemoryLatency) +
            config.writebackLatency) := by
  obtain ⟨l1Nonneg, l1AtMost⟩ :=
    @rate_mem l1Misses (l1Hits + l1Misses) 1 (by omega)
  obtain ⟨l2Nonneg, l2AtMost⟩ :=
    @rate_mem l2Misses (l2Hits + l2Misses) 1 (by omega)
  obtain ⟨dirtyNonneg, dirtyAtMost⟩ :=
    @rate_mem dirtyEvicts (l1Hits + l1Misses) 1 (by omega)
  rw [Nat.cast_one] at l1AtMost l2AtMost dirtyAtMost
  rw [amat_eq, Set.mem_Icc]
  generalize rate l1Misses (l1Hits + l1Misses) = l1Rate at *
  generalize rate l2Misses (l2Hits + l2Misses) = l2Rate at *
  generalize rate dirtyEvicts (l1Hits + l1Misses) = dirtyRate at *
  have l2Latency : (0 : ℚ) ≤ config.l2Latency := Nat.cast_nonneg _
  have memoryLatency : (0 : ℚ) ≤ config.globalMemoryLatency :=
    Nat.cast_nonneg _
  have writeback : (0 : ℚ) ≤ config.writebackLatency := Nat.cast_nonneg _
  have fromMemory :
      0 ≤ l2Rate * config.globalMemoryLatency ∧
        l2Rate * config.globalMemoryLatency ≤
          config.globalMemoryLatency :=
    ⟨mul_nonneg l2Nonneg memoryLatency,
      mul_le_of_le_one_left memoryLatency l2AtMost⟩
  have fromL2 :
      0 ≤
          l1Rate *
            (config.l2Latency + l2Rate * config.globalMemoryLatency) ∧
        l1Rate * (config.l2Latency + l2Rate * config.globalMemoryLatency) ≤
          config.l2Latency + l2Rate * config.globalMemoryLatency :=
    ⟨mul_nonneg l1Nonneg (add_nonneg l2Latency fromMemory.1),
      mul_le_of_le_one_left (add_nonneg l2Latency fromMemory.1) l1AtMost⟩
  have written :
      0 ≤ dirtyRate * config.writebackLatency ∧
        dirtyRate * config.writebackLatency ≤ config.writebackLatency :=
    ⟨mul_nonneg dirtyNonneg writeback,
      mul_le_of_le_one_left writeback dirtyAtMost⟩
  constructor
  · linarith [fromL2.1, written.1]
  · linarith [fromMemory.2, fromL2.2, written.2]

/-- A total over all multiprocessors is at most the largest summand of each. -/
theorem total_le_largest :
    total gpu count ≤ gpu.sms.length * largest gpu count := by
  unfold total
  have bound :=
    List.sum_le_card_nsmul (gpu.sms.map count) (largest gpu count)
      (List.forall_mem_map.mpr fun _ member => le_largest member)
  rwa [List.length_map, smul_eq_mul] at bound

end Totals

end SweepEngine

/-- Jain's index of counts whose squares do not wrap is a fraction. -/
theorem PerformanceCounter.jain_mem
    {counters : PerformanceCounter}
    (few : (counters.warpIssueCounts.map Prod.snd).sum < 2 ^ 32) :
    counters.getJainsFairnessIndex ∈ Set.Icc (0 : ℚ) 1 := by
  unfold getJainsFairnessIndex
  split
  · exact ⟨le_refl _, zero_le_one⟩
  · dsimp only
    generalize counters.warpIssueCounts.map Prod.snd = counts at few
    have squares :
        (counts.map fun count => count * count % 2 ^ 64) =
          counts.map fun count => count * count := by
      refine List.map_congr_left fun count member => ?_
      have small : count < 2 ^ 32 :=
        (List.le_sum_of_mem member).trans_lt few
      have product := Nat.mul_lt_mul'' small small
      exact Nat.mod_eq_of_lt (product.trans_eq (by norm_num))
    have bound := sum_mul_sum_le counts
    rw [squares]
    split
    · exact ⟨le_refl _, zero_le_one⟩
    · refine ⟨by positivity, div_le_one_of_le₀ ?_ (by positivity)⟩
      exact_mod_cast bound

namespace SweepEngine

section Runs

variable {config : SystemConfig}
variable {rng : Nat → Nat → Nat → Nat}
variable {kernel : Kernel}
variable {grid : Grid}
variable {req : KernelResourceRequirements}
variable {configIdx fuel : Nat}
variable {result : SimulationResult}

/-- A simulation that returns has condensed a GPU that ran to its end. -/
theorem executeConfiguration_ok
    (ran :
      (executeConfiguration config rng kernel grid req configIdx fuel).run =
        some (.ok result)) :
    ∃ gpu after occ,
      GPU.new config SchedulerFactory.createScheduler rng = .ok gpu ∧
        gpu.launchAndRun grid config req kernel fuel = some (.ok after) ∧
        OccupancyCalculator.compute config req = .ok occ ∧
        result = condense config configIdx after occ := by
  obtain ⟨gpu, built, rest⟩ := fuelled_bind_ok.mp ran
  obtain ⟨after, runs, rest⟩ := fuelled_bind_ok.mp rest
  obtain ⟨occ, computed, returned⟩ := fuelled_bind_ok.mp rest
  cases returned
  exact ⟨gpu, after, occ, Option.some.inj built, runs,
    Option.some.inj computed, rfl⟩

/-- The multiprocessors of a built GPU have nothing to report yet. -/
theorem new_reported
    {gpu : GPU Scheduler}
    (built : GPU.new config SchedulerFactory.createScheduler rng = .ok gpu) :
    gpu.sms.length = config.numSms ∧
      ∀ sm ∈ gpu.sms, sm.clearWarps.Reported := by
  have isFresh := GPU.new_fresh built
  obtain ⟨l2Cache, _, rest⟩ := except_bind_ok.mp built
  obtain ⟨sms, smsBuilt, returned⟩ := except_bind_ok.mp rest
  cases returned
  have each := except_mapM_ok.mp smsBuilt
  constructor
  · rw [← each.length_eq, List.length_range]
  · intro sm member
    obtain ⟨_, _, _, _, _, cacheBuilt⟩ := isFresh.l1Caches sm member
    refine
      .fresh ?_ (isFresh.counters sm member) (Cache.new_clean cacheBuilt).2
        rfl
    obtain ⟨smId, found⟩ := List.mem_iff_getElem?.mp member
    obtain ⟨_, _, isBuilt⟩ := Pointwise.origin each found
    obtain ⟨empty, _, later⟩ := except_bind_ok.mp isBuilt
    obtain ⟨scheduler, _, returned⟩ := except_bind_ok.mp later
    cases returned
    rfl

/-- The GPU that a simulation condenses has only completed multiprocessors. -/
theorem executeConfiguration_reported
    (untouched : ∀ block ∈ grid.blocks, SM.Untouched block)
    (ran :
      (executeConfiguration config rng kernel grid req configIdx fuel).run =
        some (.ok result)) :
    ∃ (after : GPU Scheduler) (occ : OccupancyResult),
      OccupancyCalculator.compute config req = .ok occ ∧
        result = condense config configIdx after occ ∧
        after.sms.length = config.numSms ∧
        ∀ sm ∈ after.sms, sm.Reported ∧ sm.isCompleted = true := by
  obtain ⟨gpu, after, occ, built, runs, computed, isResult⟩ :=
    executeConfiguration_ok ran
  obtain ⟨length, fresh⟩ := new_reported built
  obtain ⟨sameLength, final⟩ :=
    GPU.launchAndRun_each (SM.Reported.keeps kernel) untouched fresh runs
  exact ⟨after, occ, computed, isResult, sameLength.trans length, final⟩

/-- A wait that starved a warp has been recorded when the warp is through. -/
theorem starved_recorded
    {sm : SM Scheduler}
    (reported : sm.Reported)
    (completed : sm.isCompleted = true)
    (starved : 0 < sm.counters.starvationEvents) :
    1000 < sm.counters.maxWarpWaitCycles := by
  rcases reported.starving starved with recorded | ⟨warp, member, long⟩
  · exact recorded
  · have ready : warp.state = .ready :=
      (reported.inStep warp member).wait (Nat.ne_zero_of_lt long)
    rw [SM.completed_of_isCompleted completed member] at ready
    cases ready

/-- The fairness of a run is a mean of fractions. -/
theorem fairness_mem
    {gpu : GPU Scheduler}
    (each :
      ∀ sm ∈ gpu.sms,
        sm.counters.getJainsFairnessIndex ∈ Set.Icc (0 : ℚ) 1) :
    (if 0 < gpu.sms.length then
          (gpu.sms.map fun sm => sm.counters.getJainsFairnessIndex).sum /
            (gpu.sms.length : ℚ)
        else
          0) ∈
      Set.Icc (0 : ℚ) 1 := by
  split
  · rename_i positive
    have positiveRat : (0 : ℚ) < gpu.sms.length := Nat.cast_pos.mpr positive
    have below :=
      List.sum_le_card_nsmul
        (gpu.sms.map fun sm => sm.counters.getJainsFairnessIndex) 1
        (List.forall_mem_map.mpr fun sm member => (each sm member).2)
    rw [List.length_map, nsmul_eq_mul, mul_one] at below
    refine ⟨div_nonneg (List.sum_nonneg ?_) positiveRat.le, ?_⟩
    · exact List.forall_mem_map.mpr fun sm member => (each sm member).1
    · rw [div_le_one positiveRat]
      exact below
  · exact ⟨le_refl _, zero_le_one⟩

/-- What is condensed from such multiprocessors is consistent. -/
theorem condense_consistent
    {after : GPU Scheduler}
    {occ : OccupancyResult}
    (computed : OccupancyCalculator.compute config req = .ok occ)
    (length : after.sms.length = config.numSms)
    (final :
      ∀ sm ∈ after.sms, sm.Reported ∧ sm.isCompleted = true) :
    (condense config configIdx after occ).Consistent := by
  have reported (sm : SM Scheduler) (member : sm ∈ after.sms) :
      sm.Reported :=
    (final sm member).1
  have counters (sm : SM Scheduler) (member : sm ∈ after.sms) :
      sm.counters.Proportionate :=
    (reported sm member).proportionate
  have cycles :
      (total after fun sm => sm.counters.cycles) ≤
        config.numSms * largest after fun sm => sm.counters.cycles := by
    rw [← length]
    exact total_le_largest
  have instructions :=
    total_le_total fun sm member => (counters sm member).retired
  have memory := total_le_total fun sm member => (counters sm member).memory
  have misses :=
    total_le_total fun sm member => (reported sm member).writebacks
  have conflicts :=
    total_le fun sm member => (counters sm member).bankConflicts
  have perCycle := instructions.trans cycles
  have issues (sm : SM Scheduler) (member : sm ∈ after.sms) :
      (sm.counters.warpIssueCounts.map Prod.snd).sum ≤
        largest after fun sm => sm.counters.cycles :=
    (counters sm member).issues.trans
      (@le_largest _ _ (fun sm => sm.counters.cycles) _ member)
  refine
    { noReadyWarpCycles := ?_
      instructionsRetired := perCycle
      memoryInstructions := memory
      memoryTransactions :=
        total_le fun sm member => (counters sm member).transactions
      l1Accesses := ?_
      dirtyEvictions := misses
      bankConflicts := conflicts
      maxWarpWaitCycles := ?_
      starvationEvents := fun starved => ?_
      ipc := rate_mem perCycle
      amat := amat_mem config misses
      occupancy := ?_
      fairness := fun short =>
        fairness_mem fun sm member =>
          jain_mem ((issues sm member).trans_lt short)
      l1HitRate := ?_
      l2HitRate := ?_
      bankConflictRate := rate_mem conflicts
      ipcUtilization := ?_ }
  · refine List.sum_eq_zero fun stalls isStalls => ?_
    obtain ⟨sm, member, rfl⟩ := List.mem_map.mp isStalls
    exact (counters sm member).noReadyWarp
  · have accesses :=
      total_le_total fun sm member => (reported sm member).accesses
    unfold total at accesses
    rwa [List.sum_map_add] at accesses
  · exact
      largest_le fun sm member =>
        (reported sm member).shortWaits.longest.trans
          (@le_largest _ _ (fun sm => sm.counters.cycles) _ member)
  · obtain ⟨sm, member, starving⟩ :
        ∃ sm ∈ after.sms, 0 < sm.counters.starvationEvents := by
      by_contra none
      simp only [not_exists, not_and, Nat.not_lt, Nat.le_zero] at none
      refine starved.ne' (List.sum_eq_zero fun events isEvents => ?_)
      obtain ⟨sm, member, rfl⟩ := List.mem_map.mp isEvents
      exact none sm member
    exact
      (starved_recorded (reported sm member) (final sm member).2
        starving).trans_le
        (@le_largest _ _ (fun sm => sm.counters.maxWarpWaitCycles) _
          member)
  · rw [← Nat.cast_one]
    refine rate_mem ?_
    unfold OccupancyCalculator.compute at computed
    split at computed
    · cases computed
    · cases computed
      rw [Nat.one_mul]
      exact min_le_left _ _
  · rw [← Nat.cast_one]
    exact rate_mem (by omega)
  · rw [← Nat.cast_one]
    exact rate_mem (by omega)
  · dsimp only [condense]
    split
    · rename_i positive
      have positiveRat : (0 : ℚ) < config.numSms :=
        Nat.cast_pos.mpr positive
      obtain ⟨nonneg, below⟩ := rate_mem perCycle
      exact
        ⟨div_nonneg nonneg positiveRat.le,
          (div_le_one positiveRat).mpr below⟩
    · exact ⟨le_refl _, zero_le_one⟩

/-- Every result of a sweep comes from one of its configurations, in order. -/
theorem runSweep_at
    {base : SystemConfig}
    {rng : Nat → Nat → Nat → Nat → Nat}
    {space : ParameterSpace}
    {results : List SimulationResult}
    (untouched : ∀ block ∈ grid.blocks, SM.Untouched block)
    (ran :
      (runSweep base rng kernel grid req space fuel).run =
        some (.ok results)) :
    List.Forall₂
      (fun entry result =>
        ∃ (after : GPU Scheduler) (occ : OccupancyResult),
          result = condense entry.1 entry.2 after occ ∧ result.Consistent)
      (generateConfigurations base space).zipIdx results := by
  refine (fuelled_mapM_ok.mp ran).imp fun entry result isResult => ?_
  obtain ⟨after, occ, computed, rfl, length, final⟩ :=
    executeConfiguration_reported untouched isResult
  exact ⟨after, occ, rfl, condense_consistent computed length final⟩

/-- The results of a sweep are of its configurations, in order. -/
theorem runSweep_configs
    {base : SystemConfig}
    {rng : Nat → Nat → Nat → Nat → Nat}
    {space : ParameterSpace}
    {results : List SimulationResult}
    (untouched : ∀ block ∈ grid.blocks, SM.Untouched block)
    (ran :
      (runSweep base rng kernel grid req space fuel).run =
        some (.ok results)) :
    results.map SimulationResult.config =
      generateConfigurations base space := by
  rw [← List.zipIdx_map_fst 0 (generateConfigurations base space)]
  refine Pointwise.map_eq (runSweep_at untouched ran) fun isResult => ?_
  obtain ⟨_, _, rfl, _⟩ := isResult
  rfl

/--
A sweep that returns has simulated exactly its configurations, in order, and
every result is consistent: no multiprocessor retires more than one instruction
in a cycle, the memory system serves no more than the lanes ask for, in exact
arithmetic all rates are fractions, and no wait is longer than the run.  The
cycles without a ready warp are always zero.
-/
theorem runSweep_consistent
    {base : SystemConfig}
    {rng : Nat → Nat → Nat → Nat → Nat}
    {space : ParameterSpace}
    {results : List SimulationResult}
    (untouched : ∀ block ∈ grid.blocks, SM.Untouched block)
    (ran :
      (runSweep base rng kernel grid req space fuel).run =
        some (.ok results)) :
    results.map SimulationResult.config = generateConfigurations base space ∧
      ∀ result ∈ results, result.Consistent := by
  refine ⟨runSweep_configs untouched ran, fun result member => ?_⟩
  obtain ⟨position, found⟩ := List.mem_iff_getElem?.mp member
  obtain ⟨_, _, _, _, _, consistent⟩ :=
    Pointwise.origin (runSweep_at untouched ran) found
  exact consistent

end Runs

/-- Two blocks of one warp each. -/
def pairGrid : Grid :=
  ⟨[.narrow 4 1, .narrow 2 1]⟩

/-- The warps of these blocks are new. -/
theorem pairGrid_untouched : ∀ block ∈ pairGrid.blocks, SM.Untouched block := by
  have each :
      (pairGrid.blocks.all fun block =>
          block.warps.all fun warp =>
            warp.state == .ready && warp.stallCyclesRemaining == 0 &&
              warp.currentWaitCycles == 0) =
        true := by
    decide
  intro block member warp isWarp
  have isNew := List.all_eq_true.mp (List.all_eq_true.mp each block member)
    warp isWarp
  simp only [Bool.and_eq_true, beq_iff_eq] at isNew
  exact ⟨isNew.1.1, isNew.1.2, isNew.2⟩

/-- A sweep over two sizes of the L1 cache. -/
def pairSweep : Option (Except SimError (List SimulationResult)) :=
  (runSweep GPU.roomyConfig (fun _ _ _ _ => 0) GPU.addFive pairGrid ⟨32, 0⟩
    { l1Sets := [1, 2] } 400).run

/-- Both of its results are consistent. -/
theorem runSweep_consistent_pair :
    ∃ results,
      pairSweep = some (.ok results) ∧
        ∀ result ∈ results, result.noReadyWarpCycles = 0 := by
  obtain ⟨results, ran⟩ := @fuelled_ok _ _ pairSweep (by decide +kernel)
  exact
    ⟨results, ran, fun result member =>
      ((runSweep_consistent pairGrid_untouched ran).2 result
        member).noReadyWarpCycles⟩

end SweepEngine

end SimSm
