import SimSm.Diagnoses
import SimSm.MemcpyBenchmark
import SimSm.VectorAdd
import SimSm.WorkDone

namespace SimSm

/-!
# The architectural analysis

All configurations of a sweep run one grid.  An oblivious kernel does the same
work on each of them, so their results differ in how long it takes and in what
the caches do.  The analysis of the repository is such a sweep: it simulates the
vector addition, analyses the results and reports the best of them.
-/

open Outcome

/-- The work of all warps of a grid. -/
def Grid.due
    (kernel : Kernel)
    (lineSize : Nat)
    (work : Work)
    (grid : Grid) :
    Nat :=
  ((grid.blocks.flatMap ThreadBlock.warps).map
    (Warp.due kernel lineSize work)).sum

/-! ## GPUs that can be built -/

/-- Caches that have dimensions and a supported policy. -/
structure SystemConfig.Buildable (config : SystemConfig) : Prop where
  l1Dimensions :
    0 < config.l1Sets ∧ 0 < config.l1Associativity ∧ 0 < config.l1LineSize
  l1Policy :
    config.l1Policy = "LRU" ∨ config.l1Policy = "FIFO" ∨
      config.l1Policy = "Random"
  l2Dimensions :
    0 < config.l2Sets ∧ 0 < config.l2Associativity ∧ 0 < config.l2LineSize
  l2Policy :
    config.l2Policy = "LRU" ∨ config.l2Policy = "FIFO" ∨
      config.l2Policy = "Random"
  schedulerPolicy :
    config.schedulerPolicy ∈
      ["RR", "Greedy", "Priority", "OldestFirst", "GTO", "TwoLevel"]

namespace GPU

variable {config : SystemConfig}
variable {rng : Nat → Nat → Nat → Nat}

/-- A scheduler of a known name is created. -/
theorem createScheduler_succeeds
    (known :
      config.schedulerPolicy ∈
        ["RR", "Greedy", "Priority", "OldestFirst", "GTO", "TwoLevel"]) :
    ∃ scheduler,
      SchedulerFactory.createScheduler config = .ok scheduler := by
  simp only [List.mem_cons, List.not_mem_nil, or_false] at known
  unfold SchedulerFactory.createScheduler Scheduler.create
  rcases known with name | name | name | name | name | name <;>
    rw [name] <;> exact ⟨_, rfl⟩

/-- The GPU of a buildable configuration is built. -/
theorem new_succeeds
    (buildable : config.Buildable)
    (rng : Nat → Nat → Nat → Nat) :
    ∃ gpu, GPU.new config SchedulerFactory.createScheduler rng = .ok gpu := by
  obtain ⟨l2Cache, l2Built, _⟩ :=
    CacheLedger.sound_new buildable.l2Dimensions buildable.l2Policy
      (rng config.numSms)
  obtain ⟨scheduler, created⟩ :=
    createScheduler_succeeds buildable.schedulerPolicy
  obtain ⟨sms, smsBuilt⟩ :=
    @Benchmarks.mapM_succeeds Nat (SM Scheduler) SimError
      (fun smId => do
        let sm : SM Scheduler ← SM.new config (rng smId)
        let scheduler ← SchedulerFactory.createScheduler config
        pure { sm with scheduler := some scheduler })
      (List.range config.numSms) fun smId _ => by
        obtain ⟨l1Cache, l1Built, _⟩ :=
          CacheLedger.sound_new buildable.l1Dimensions buildable.l1Policy
            (rng smId)
        rw [SM.new, l1Built, created]
        exact ⟨_, rfl⟩
  exact
    ⟨_, except_bind_ok.mpr
      ⟨l2Cache, l2Built, except_bind_ok.mpr ⟨sms, smsBuilt, rfl⟩⟩⟩

/-- The L1 lines of a built GPU are of the configured size. -/
theorem new_lines
    {gpu : GPU Scheduler}
    (built : GPU.new config SchedulerFactory.createScheduler rng = .ok gpu) :
    ∀ sm ∈ gpu.sms, sm.l1Cache.lineSize = config.l1LineSize := by
  obtain ⟨l2Cache, _, rest⟩ := except_bind_ok.mp built
  obtain ⟨sms, smsBuilt, returned⟩ := except_bind_ok.mp rest
  cases returned
  intro sm member
  obtain ⟨smId, found⟩ := List.mem_iff_getElem?.mp member
  obtain ⟨_, _, isBuilt⟩ :=
    Pointwise.origin (except_mapM_ok.mp smsBuilt) found
  obtain ⟨empty, emptyBuilt, later⟩ := except_bind_ok.mp isBuilt
  obtain ⟨scheduler, _, returned⟩ := except_bind_ok.mp later
  cases returned
  obtain ⟨cache, cacheBuilt, rfl⟩ := except_map_ok.mp emptyBuilt
  unfold Cache.new at cacheBuilt
  split at cacheBuilt
  · cases cacheBuilt
  · obtain ⟨policies, _, rfl⟩ := except_map_ok.mp cacheBuilt
    rfl

/-- A built GPU has done nothing. -/
theorem new_done
    {gpu : GPU Scheduler}
    (built : GPU.new config SchedulerFactory.createScheduler rng = .ok gpu)
    (work : Work) :
    gpu.done work = 0 := by
  refine List.sum_eq_zero fun count isCount => ?_
  obtain ⟨sm, member, rfl⟩ := List.mem_map.mp isCount
  rw [(GPU.new_fresh built).counters sm member]
  cases work <;> rfl

/-- A built GPU with multiprocessors does the work of a grid. -/
theorem new_work
    {grid : Grid}
    {kernel : Kernel}
    (wellFormed : grid.WellFormed)
    (unstarted : grid.Unstarted)
    (oblivious : kernel.Oblivious)
    (onePath :
      ∀ block ∈ grid.blocks, ∀ warp ∈ block.warps, warp.simtStack = [])
    (someSms : 0 < config.numSms)
    {gpu after : GPU Scheduler}
    {req : KernelResourceRequirements}
    {fuel : Nat}
    (built : GPU.new config SchedulerFactory.createScheduler rng = .ok gpu)
    (ran : gpu.launchAndRun grid config req kernel fuel = some (.ok after))
    (work : Work) :
    after.done work = grid.due kernel config.l1LineSize work := by
  have nonempty : gpu.sms ≠ [] :=
    List.ne_nil_of_length_pos ((GPU.new_shared built).1 ▸ someSms)
  obtain ⟨launched, launches, runs⟩ := launchAndRun_ok ran
  obtain ⟨undiverged, sameDone, isDue⟩ :=
    @launch_done _ kernel config.l1LineSize work _ _ _ _ _ (new_lines built)
      onePath launches
  have moved :=
    @runToCompletion_done Scheduler kernel config.l1LineSize work _ _
      oblivious _ _ _ undiverged runs
  rw [ended_due wellFormed unstarted nonempty launches runs, sameDone,
    new_done built, isDue, Nat.zero_add] at moved
  exact moved

end GPU

/-! ## Sweeps of oblivious kernels -/

namespace ArchitecturalAnalyzer

/-- Every analysis compares one of the results with the baseline. -/
theorem analyze_compares
    {sorting : Sorting}
    {results : List SimulationResult}
    {baselineIndex : Nat}
    {analysed : AnalysisResult}
    (member : analysed ∈ analyze sorting results baselineIndex) :
    ∃ baseline result isBaseline diagnosis,
      results[if results.length ≤ baselineIndex then 0 else baselineIndex]? =
          some baseline ∧
        result ∈ results ∧
        analysed =
          { computeDeltasAndBottlenecks sorting baseline result isBaseline with
            toDiagnosis := diagnosis } := by
  unfold analyze at member
  dsimp only at member
  split at member
  · cases member
  · rename_i baseline isBaseline
    obtain ⟨entry, isEntry, rfl⟩ := List.mem_map.mp member
    obtain ⟨index, found⟩ := List.mem_iff_getElem?.mp isEntry
    rw [List.getElem?_zipIdx] at found
    obtain ⟨result, isResult, rfl⟩ := Option.map_eq_some_iff.mp found
    exact
      ⟨baseline, result, _, _, isBaseline, List.mem_of_getElem? isResult, rfl⟩

/-- The analyses are of the results, in order. -/
theorem map_simResult_analyze
    (sorting : Sorting)
    (results : List SimulationResult)
    (baselineIndex : Nat) :
    (analyze sorting results baselineIndex).map AnalysisResult.simResult =
      results := by
  unfold analyze
  dsimp only
  split
  · rename_i missing
    rw [List.getElem?_eq_none_iff] at missing
    refine (List.length_eq_zero_iff.mp ?_).symm
    split at missing <;> omega
  · rw [List.map_map]
    exact List.zipIdx_map_fst 0 results

/-- The baseline is as fast as itself. -/
theorem analyze_baseline
    (sorting : Sorting)
    {results : List SimulationResult}
    (someResults : results ≠ [])
    (baselineIndex : Nat) :
    ∃ analysed ∈ analyze sorting results baselineIndex,
      analysed.isBaseline = true ∧ analysed.speedup = 1 := by
  have someLength := List.length_pos_of_ne_nil someResults
  unfold analyze
  dsimp only
  generalize isPosition :
    (if results.length ≤ baselineIndex then 0 else baselineIndex) =
      position
  have inside : position < results.length := by
    rw [← isPosition]
    split <;> omega
  rw [List.getElem?_eq_getElem inside]
  dsimp only
  refine
    ⟨_, List.mem_map.mpr
      ⟨(results[position], position), ?_, rfl⟩, beq_self_eq_true position, ?_⟩
  · refine List.mem_iff_getElem?.mpr ⟨position, ?_⟩
    rw [List.getElem?_zipIdx, List.getElem?_eq_getElem inside,
      Option.map_some, Nat.zero_add]
  · unfold computeDeltasAndBottlenecks
    dsimp only
    split
    · rename_i someCycles
      exact div_self (Nat.cast_ne_zero.mpr someCycles.ne')
    · rfl

end ArchitecturalAnalyzer

namespace SweepEngine

open ArchitecturalAnalyzer

section Sweeps

variable {base : SystemConfig}
variable {rng : Nat → Nat → Nat → Nat → Nat}
variable {kernel : Kernel}
variable {grid : Grid}
variable {req : KernelResourceRequirements}
variable {space : ParameterSpace}
variable {fuel : Nat}
variable {results : List SimulationResult}

/-- What a simulation did of some work. -/
def workOf (result : SimulationResult) : Work → Nat
  | .instructions => result.instructionsRetired
  | .memoryInstructions => result.memoryInstructions
  | .memoryTransactions => result.memoryTransactions

/-- A result whose IPC is its work in its cycles. -/
structure Works
    (kernel : Kernel)
    (grid : Grid)
    (lineSize : Nat)
    (result : SimulationResult) : Prop where
  work : ∀ work, workOf result work = grid.due kernel lineSize work
  ipc :
    result.ipc =
      rate (grid.due kernel lineSize .instructions) result.totalCycles
  busy :
    grid.due kernel lineSize .instructions ≤
      result.config.numSms * result.totalCycles

/-- All simulations of a sweep do the work of the grid. -/
theorem runSweep_works
    (wellFormed : grid.WellFormed)
    (unstarted : grid.Unstarted)
    (untouched : ∀ block ∈ grid.blocks, SM.Untouched block)
    (oblivious : kernel.Oblivious)
    (onePath :
      ∀ block ∈ grid.blocks, ∀ warp ∈ block.warps, warp.simtStack = [])
    (someSms : 0 < base.numSms)
    (ran :
      (runSweep base rng kernel grid req space fuel).run =
        some (.ok results)) :
    ∀ result ∈ results, Works kernel grid base.l1LineSize result := by
  intro result member
  obtain ⟨index, found⟩ := List.mem_iff_getElem?.mp member
  obtain ⟨entry, isEntry, executed⟩ :=
    Pointwise.origin (fuelled_mapM_ok.mp ran) found
  obtain ⟨_, _, _, _, _, consistent⟩ :=
    Pointwise.origin (runSweep_at untouched ran) found
  obtain ⟨gpu, after, occ, built, runs, _, rfl⟩ :=
    executeConfiguration_ok executed
  rw [List.getElem?_zipIdx] at isEntry
  obtain ⟨config, isConfig, rfl⟩ := Option.map_eq_some_iff.mp isEntry
  have same :=
    eq_of_mem_generateConfigurations (List.mem_of_getElem? isConfig)
  have sameSms : config.numSms = base.numSms := by rw [same]
  have sameLines : config.l1LineSize = base.l1LineSize := by rw [same]
  have done (work : Work) :
      after.done work = grid.due kernel base.l1LineSize work := by
    rw [← sameLines]
    exact
      GPU.new_work wellFormed unstarted oblivious onePath
        (sameSms ▸ someSms) built runs work
  have retired := done .instructions
  refine ⟨fun work => ?_, ?_, ?_⟩
  · rw [← done work]
    cases work <;> rfl
  · rw [← retired]
    rfl
  · rw [← retired]
    exact consistent.instructionsRetired

/-- Two times for the same work compare as their inverse rates do. -/
theorem deltaPct_rate
    {work before after : Nat}
    (someWork : 0 < work)
    (someBefore : 0 < before)
    (someAfter : 0 < after) :
    deltaPct (rate work before) (rate work after) =
      ((before : ℚ) / after - 1) * 100 := by
  have workRat : (0 : ℚ) < work := Nat.cast_pos.mpr someWork
  have beforeRat : (0 : ℚ) < before := Nat.cast_pos.mpr someBefore
  have afterRat : (0 : ℚ) < after := Nat.cast_pos.mpr someAfter
  unfold deltaPct rate
  rw [if_pos someBefore, if_pos someAfter, if_pos (by positivity)]
  field_simp

/-- The rate of the same work is higher in less time. -/
theorem rate_le_rate_iff
    {work before after : Nat}
    (someWork : 0 < work)
    (someBefore : 0 < before)
    (someAfter : 0 < after) :
    rate work before ≤ rate work after ↔ after ≤ before := by
  have workRat : (0 : ℚ) < work := Nat.cast_pos.mpr someWork
  have beforeRat : (0 : ℚ) < before := Nat.cast_pos.mpr someBefore
  have afterRat : (0 : ℚ) < after := Nat.cast_pos.mpr someAfter
  unfold rate
  rw [if_pos someBefore, if_pos someAfter,
    div_le_div_iff_of_pos_left workRat beforeRat afterRat, Nat.cast_le]

/-- What the analyzer finds when all results do the same work. -/
structure Comparison
    (baselineCycles : Nat)
    (analysed : AnalysisResult) : Prop where
  someCycles : 0 < baselineCycles ∧ 0 < analysed.simResult.totalCycles
  speedup :
    analysed.speedup =
      (baselineCycles : ℚ) / analysed.simResult.totalCycles
  ipcDeltaPct : analysed.ipcDeltaPct = (analysed.speedup - 1) * 100
  cycleDeltaPct :
    analysed.cycleDeltaPct = some ((analysed.speedup⁻¹ - 1) * 100)

/-- Results with the same work are compared by their cycles. -/
theorem analyze_comparison
    {sorting : Sorting}
    {baselineIndex lineSize : Nat}
    (works : ∀ result ∈ results, Works kernel grid lineSize result)
    (someWork : 0 < grid.due kernel lineSize .instructions) :
    ∃ baselineCycles,
      ∀ analysed ∈ analyze sorting results baselineIndex,
        analysed.simResult ∈ results ∧
          Comparison baselineCycles analysed := by
  cases isBaseline :
    results[if results.length ≤ baselineIndex then 0
      else baselineIndex]? with
  | none =>
      refine ⟨0, fun analysed member => ?_⟩
      obtain ⟨_, _, _, _, found, _⟩ := analyze_compares member
      rw [isBaseline] at found
      cases found
  | some baseline =>
      refine ⟨baseline.totalCycles, fun analysed member => ?_⟩
      obtain ⟨_, result, isFirst, diagnosis, found, isResult, rfl⟩ :=
        analyze_compares member
      rw [isBaseline] at found
      obtain rfl := Option.some.inj found
      have busy (other : SimulationResult) (isOther : other ∈ results) :
          0 < other.totalCycles :=
        Nat.pos_of_mul_pos_left
          (someWork.trans_le (works other isOther).busy)
      have someBefore := busy _ (List.mem_of_getElem? isBaseline)
      have someAfter := busy _ isResult
      have beforeIpc := (works _ (List.mem_of_getElem? isBaseline)).ipc
      have afterIpc := (works _ isResult).ipc
      refine ⟨isResult, ?_⟩
      have speedup :
          (computeDeltasAndBottlenecks sorting baseline result
              isFirst).speedup =
            (baseline.totalCycles : ℚ) / result.totalCycles :=
        if_pos someAfter
      refine ⟨⟨someBefore, someAfter⟩, speedup, ?_, ?_⟩
      · dsimp only at *
        rw [speedup]
        change deltaPct baseline.ipc result.ipc = _
        rw [beforeIpc, afterIpc, deltaPct_rate someWork someBefore someAfter]
      · dsimp only at *
        rw [speedup]
        unfold computeDeltasAndBottlenecks
        dsimp only
        rw [if_pos someAfter, if_neg someBefore.ne', Option.some.injEq]
        have beforeRat : (0 : ℚ) < baseline.totalCycles :=
          Nat.cast_pos.mpr someBefore
        field_simp

/-- Against one baseline, fewer cycles are a larger speedup. -/
theorem Comparison.speedup_le_iff
    {baselineCycles : Nat}
    {analysed other : AnalysisResult}
    (first : Comparison baselineCycles analysed)
    (second : Comparison baselineCycles other) :
    analysed.speedup ≤ other.speedup ↔
      other.simResult.totalCycles ≤ analysed.simResult.totalCycles := by
  have baseline : (0 : ℚ) < baselineCycles :=
    Nat.cast_pos.mpr first.someCycles.1
  have mine : (0 : ℚ) < analysed.simResult.totalCycles :=
    Nat.cast_pos.mpr first.someCycles.2
  have its : (0 : ℚ) < other.simResult.totalCycles :=
    Nat.cast_pos.mpr second.someCycles.2
  rw [first.speedup, second.speedup,
    div_le_div_iff_of_pos_left baseline mine its, Nat.cast_le]

/--
The results of a sweep over an oblivious kernel all count the same work.  So,
in exact arithmetic, the analyzer's change in IPC and its change in cycles say
nothing that the speedup does not, against every baseline, and of two
configurations the one with the larger speedup has the fewer cycles and the
higher IPC.
-/
theorem runSweep_comparable
    (wellFormed : grid.WellFormed)
    (unstarted : grid.Unstarted)
    (untouched : ∀ block ∈ grid.blocks, SM.Untouched block)
    (oblivious : kernel.Oblivious)
    (onePath :
      ∀ block ∈ grid.blocks, ∀ warp ∈ block.warps, warp.simtStack = [])
    (someSms : 0 < base.numSms)
    (someWork : 0 < grid.due kernel base.l1LineSize .instructions)
    (ran :
      (runSweep base rng kernel grid req space fuel).run =
        some (.ok results))
    (sorting : Sorting)
    (baselineIndex : Nat) :
    ∀ analysed ∈ analyze sorting results baselineIndex,
      (∀ work,
        workOf analysed.simResult work =
          grid.due kernel base.l1LineSize work) ∧
        analysed.ipcDeltaPct = (analysed.speedup - 1) * 100 ∧
        analysed.cycleDeltaPct = some ((analysed.speedup⁻¹ - 1) * 100) ∧
        ∀ other ∈ analyze sorting results baselineIndex,
          (analysed.speedup ≤ other.speedup ↔
              other.simResult.totalCycles ≤
                analysed.simResult.totalCycles) ∧
            (analysed.speedup ≤ other.speedup ↔
              analysed.simResult.ipc ≤ other.simResult.ipc) := by
  have works :=
    runSweep_works wellFormed unstarted untouched oblivious onePath someSms
      ran
  obtain ⟨baselineCycles, compares⟩ :=
    @analyze_comparison kernel grid results sorting baselineIndex _ works
      someWork
  intro analysed member
  obtain ⟨isResult, comparison⟩ := compares analysed member
  refine
    ⟨(works _ isResult).work, comparison.ipcDeltaPct,
      comparison.cycleDeltaPct, fun other isOther => ?_⟩
  obtain ⟨otherResult, otherComparison⟩ := compares other isOther
  have faster := comparison.speedup_le_iff otherComparison
  refine ⟨faster, faster.trans ?_⟩
  rw [(works _ isResult).ipc, (works _ otherResult).ipc]
  exact
    (rate_le_rate_iff someWork comparison.someCycles.2
      otherComparison.someCycles.2).symm

end Sweeps

/-- Both results of a sweep over two blocks count four instructions. -/
theorem runSweep_comparable_pair :
    ∃ results,
      pairSweep = some (.ok results) ∧
        ∀ analysed ∈ analyze stableSort results 1,
          analysed.simResult.instructionsRetired = 4 ∧
            analysed.ipcDeltaPct = (analysed.speedup - 1) * 100 := by
  obtain ⟨results, ran⟩ := @fuelled_ok _ _ pairSweep (by decide +kernel)
  have unstarted : pairGrid.Unstarted := by
    unfold Grid.Unstarted
    decide
  have onePath :
      ∀ block ∈ pairGrid.blocks,
        ∀ warp ∈ block.warps, warp.simtStack = [] := by
    decide
  have compared :=
    runSweep_comparable (GPU.narrow_wellFormed [4, 2] (by decide)) unstarted
      pairGrid_untouched ⟨by decide, by decide +kernel⟩ onePath (by decide)
      (by decide +kernel) ran stableSort 1
  refine ⟨results, ran, fun analysed member => ?_⟩
  obtain ⟨work, gain, _⟩ := compared analysed member
  exact ⟨(work .instructions).trans (by decide +kernel), gain⟩

end SweepEngine

/-! ## The report and the analysis -/

namespace ReportGenerator

/-- The first result with the largest speedup. -/
def best? : List AnalysisResult → Option AnalysisResult
  | [] => none
  | first :: rest =>
      some
        (rest.foldl
          (fun best result =>
            if best.speedup < result.speedup then result else best)
          first)

/-- A search for the largest speedup keeps to the results. -/
theorem best_foldl
    (results : List AnalysisResult)
    (first : AnalysisResult) :
    let best :=
      results.foldl
        (fun best result =>
          if best.speedup < result.speedup then result else best)
        first
    best ∈ first :: results ∧
      ∀ result ∈ first :: results, result.speedup ≤ best.speedup := by
  dsimp only
  induction results generalizing first with
  | nil => simp
  | cons next rest inductionHypothesis =>
      rw [List.foldl_cons]
      split
      · rename_i faster
        obtain ⟨member, fastest⟩ := inductionHypothesis next
        refine ⟨List.mem_cons_of_mem _ member, ?_⟩
        rw [List.forall_mem_cons]
        exact
          ⟨faster.le.trans (fastest next List.mem_cons_self), fastest⟩
      · rename_i slower
        obtain ⟨member, fastest⟩ := inductionHypothesis first
        constructor
        · rcases List.mem_cons.mp member with same | later
          · rw [same]
            exact List.mem_cons_self
          · exact List.mem_cons_of_mem _ (List.mem_cons_of_mem _ later)
        · have mine := fastest first List.mem_cons_self
          rw [List.forall_mem_cons] at fastest
          rw [List.forall_mem_cons, List.forall_mem_cons]
          exact ⟨mine, (not_lt.mp slower).trans mine, fastest.2⟩

/-- Where there are results, there is a best one. -/
theorem exists_best
    {results : List AnalysisResult}
    (someResults : results ≠ []) :
    ∃ best, best? results = some best := by
  cases results with
  | nil => exact (someResults rfl).elim
  | cons first rest => exact ⟨_, rfl⟩

/-- The best result is one of the results, and none is faster. -/
theorem best?_spec
    {results : List AnalysisResult}
    {best : AnalysisResult}
    (isBest : best? results = some best) :
    best ∈ results ∧ ∀ result ∈ results, result.speedup ≤ best.speedup := by
  cases results with
  | nil => cases isBest
  | cons first rest =>
      cases isBest
      exact best_foldl rest first

end ReportGenerator

namespace Benchmarks

/-- The configurations that the analysis compares. -/
def analysisSpace : ParameterSpace where
  schedulerPolicies := ["RR", "GTO", "OldestFirst", "TwoLevel"]
  l1Sets := [4, 8, 16]

/-- Simulate the vector addition on all of them and analyse the results. -/
def runAnalysis
    (sorting : ArchitecturalAnalyzer.Sorting)
    (base : SystemConfig)
    (rng : Nat → Nat → Nat → Nat → Nat)
    (fuel : Nat) :
    ExceptT SimError Option (List AnalysisResult) := do
  let grid ←
    ExceptT.mk
      (some (buildBenchmarkGrid 2048 base.blockSize base.warpSize false))
  let results ←
    SweepEngine.runSweep base rng (generateVectorAddKernel 100 (by decide))
      grid ⟨10, 0⟩ analysisSpace fuel
  pure (ArchitecturalAnalyzer.analyze sorting results 0)

/-- What the analysis needs of its base configuration. -/
structure Analysable (base : SystemConfig) : Prop where
  l1Ways : 0 < base.l1Associativity ∧ 0 < base.l1LineSize
  l1Policy :
    base.l1Policy = "LRU" ∨ base.l1Policy = "FIFO" ∨
      base.l1Policy = "Random"
  l2Dimensions :
    0 < base.l2Sets ∧ 0 < base.l2Associativity ∧ 0 < base.l2LineSize
  l2Policy :
    base.l2Policy = "LRU" ∨ base.l2Policy = "FIFO" ∨
      base.l2Policy = "Random"
  someSms : 0 < base.numSms
  someActive : 1 ≤ base.activeSetSize
  someThreads : 0 < base.blockSize
  few : base.blockSize ≤ 2 ^ 31
  positive : 0 < base.warpSize
  narrow : base.warpSize ≤ 32
  oneBlock : 1 ≤ base.maxBlocksPerSm
  warps : warpCount base.warpSize base.blockSize ≤ base.maxWarpsPerSm
  threads : base.blockSize ≤ base.maxThreadsPerSm
  registers : base.blockSize * 10 ≤ base.maxRegistersPerSm
  large : 30000 ≤ base.globalMemorySize

/-- The vector addition writes its last three registers. -/
theorem vectorAdd_writes
    {iterations : Nat}
    {inst : Instruction}
    (member : inst ∈ vectorAddInstructions iterations)
    (writes : inst.opcode.writesRegister = true) :
    inst.dst ∈ ([3, 4, 5] : List Int) := by
  obtain ⟨i, _, isTurn⟩ := List.mem_flatMap.mp member
  simp only [vectorAddTurn, add, List.mem_cons, List.not_mem_nil, or_false]
    at isTurn
  rcases isTurn with rfl | rfl | rfl | rfl
  · exact List.mem_cons_self
  · exact List.mem_cons_of_mem _ List.mem_cons_self
  · exact List.mem_cons_of_mem _ (List.mem_cons_of_mem _ List.mem_cons_self)
  · cases writes

/-- The vector addition addresses memory by its first three registers. -/
theorem vectorAdd_addresses
    {iterations : Nat}
    {inst : Instruction}
    (member : inst ∈ vectorAddInstructions iterations)
    (isMemory : SM.isMemoryOpcode inst.opcode = true) :
    inst.addressOperand ∈ ([0, 1, 2] : List Int) := by
  obtain ⟨i, _, isTurn⟩ := List.mem_flatMap.mp member
  simp only [vectorAddTurn, add, List.mem_cons, List.not_mem_nil, or_false]
    at isTurn
  rcases isTurn with rfl | rfl | rfl | rfl
  · exact List.mem_cons_self
  · exact List.mem_cons_of_mem _ List.mem_cons_self
  · cases isMemory
  · exact List.mem_cons_of_mem _ (List.mem_cons_of_mem _ List.mem_cons_self)

/-- The vector addition never writes the registers of its addresses. -/
theorem vectorAdd_oblivious
    {iterations : Nat}
    (isInt : iterations < 2 ^ 31) :
    (generateVectorAddKernel iterations isInt).Oblivious where
  straight _ member := VectorAdd.straight_instructions member
  addresses inst member isMemory other isOther writes := by
    have apart :
        ∀ dst ∈ ([3, 4, 5] : List Int),
          ∀ operand ∈ ([0, 1, 2] : List Int), sizeT dst ≠ sizeT operand := by
      decide +kernel
    exact
      apart _ (vectorAdd_writes isOther writes) _
        (vectorAdd_addresses member isMemory)

section ElementGrid

variable {numElements blockSize warpSize : Nat}
variable {buildThread : Nat → Nat → Nat → Except SimError Thread}
variable {grid : Grid}

/-- The warps of a grid of elements are at their start, on one path. -/
theorem elementGrid_atStart
    (someThreads : 0 < blockSize)
    (positive : 0 < warpSize)
    (narrow : warpSize ≤ 32)
    (wellFormed : grid.WellFormed)
    (built :
      buildElementGrid numElements blockSize warpSize buildThread =
        .ok grid) :
    ∀ block ∈ grid.blocks,
      ∀ warp ∈ block.warps, warp.simtStack = [] ∧ warp.warpPc = 0 := by
  intro block member warp isWarp
  obtain ⟨position, found⟩ := List.mem_iff_getElem?.mp isWarp
  obtain ⟨_, _, paths⟩ :=
    GPU.warp_of_name someThreads positive narrow built
      (Grid.warp?_eq wellFormed.distinct member found)
  constructor
  · exact List.map_eq_nil_iff.mp (congrArg PathState.pending paths)
  · exact congrArg (fun state => state.current.pc) paths

/-- A grid of elements has a warp when there is an element. -/
theorem elementGrid_someWarp
    (someThreads : 0 < blockSize)
    (positive : 0 < warpSize)
    (narrow : warpSize ≤ 32)
    (noWrap : numElements + blockSize ≤ 2 ^ 64)
    (someElements : 0 < numElements)
    (wellFormed : grid.WellFormed)
    (built :
      buildElementGrid numElements blockSize warpSize buildThread =
        .ok grid) :
    0 < (grid.blocks.flatMap ThreadBlock.warps).length := by
  obtain ⟨block, isBlock, localId, isThread, _⟩ :=
    thread_of_element noWrap someThreads someElements
  obtain ⟨warp, found⟩ :=
    GPU.name_of_thread someThreads positive narrow wellFormed built isBlock
      isThread
  obtain ⟨threadBlock, search, atPosition⟩ := Option.bind_eq_some_iff.mp found
  exact
    List.length_pos_of_mem
      (List.mem_flatMap.mpr
        ⟨threadBlock, List.mem_of_find?_eq_some search,
          List.mem_of_getElem? atPosition⟩)

/-- New warps at their start have all instructions to retire. -/
theorem due_instructions
    {kernel : Kernel}
    {lineSize : Nat}
    (untouched : ∀ block ∈ grid.blocks, SM.Untouched block)
    (atStart :
      ∀ block ∈ grid.blocks,
        ∀ warp ∈ block.warps, warp.simtStack = [] ∧ warp.warpPc = 0) :
    grid.due kernel lineSize .instructions =
      (grid.blocks.flatMap ThreadBlock.warps).length * kernel.size := by
  unfold Grid.due
  rw [← smul_eq_mul, ← List.sum_replicate]
  congr 1
  rw [List.eq_replicate_iff, List.length_map]
  refine ⟨rfl, List.forall_mem_map.mpr fun warp member => ?_⟩
  obtain ⟨block, isBlock, isWarp⟩ := List.mem_flatMap.mp member
  have notCompleted : warp.state ≠ .completed := by
    rw [(untouched block isBlock warp isWarp).state]
    exact WarpState.noConfusion
  rw [Warp.due, if_neg notCompleted, (atStart block isBlock warp isWarp).2,
    List.drop_zero]
  change (kernel.instructions.map fun _ => 1).sum = _
  rw [List.map_const', List.sum_replicate, smul_eq_mul, Nat.mul_one]
  rfl

end ElementGrid

section Runs

variable {base config : SystemConfig}
variable {grid : Grid}
variable {fuel : Nat}

/-- There is room for the blocks of the vector addition. -/
theorem Analysable.room
    (analysable : Analysable base)
    (built :
      buildBenchmarkGrid 2048 base.blockSize base.warpSize false = .ok grid) :
    ∀ block ∈ grid.blocks, SM.fitsEmpty block base ⟨10, 0⟩ = true := by
  intro block member
  have few := analysable.few
  have partitions :=
    buildBenchmarkGrid_partitions analysable.someThreads analysable.positive
      analysable.narrow (by omega) built
  obtain ⟨position, found⟩ := List.mem_iff_getElem?.mp member
  obtain ⟨_, numThreads, _⟩ := partitions.blocks position block found
  obtain ⟨_, blocks⟩ := buildElementGrid_blocks analysable.someThreads built
  obtain ⟨numWarps, _⟩ :=
    (blocks block member).start analysable.positive analysable.narrow
  have fewThreads : block.numThreads ≤ base.blockSize := by omega
  have fewWarps :
      block.warps.length ≤ warpCount base.warpSize base.blockSize := by
    rw [numWarps]
    refine Nat.div_le_div_right ?_
    unfold threadsInBlock
    omega
  have registers := Nat.mul_le_mul_right 10 fewThreads
  unfold SM.fitsEmpty
  simp only [Bool.and_eq_true]
  exact
    ⟨⟨⟨⟨decide_eq_true analysable.oneBlock,
      decide_eq_true (fewWarps.trans analysable.warps)⟩,
      decide_eq_true (fewThreads.trans analysable.threads)⟩,
      decide_eq_true (registers.trans analysable.registers)⟩,
      decide_eq_true (Nat.zero_le _)⟩

/-- The analysis varies the policy and the L1 sets of its base. -/
theorem mem_analysisSpace
    (member :
      config ∈ SweepEngine.generateConfigurations base analysisSpace) :
    ∃ policy ∈ ["RR", "GTO", "OldestFirst", "TwoLevel"],
      ∃ sets ∈ [4, 8, 16],
        config = { base with schedulerPolicy := policy, l1Sets := sets } := by
  have shape :
      SweepEngine.generateConfigurations base analysisSpace =
        (["RR", "GTO", "OldestFirst", "TwoLevel"].map
            (SweepEngine.withPolicy base)).flatMap
          fun config => [4, 8, 16].map (SweepEngine.withL1Sets config) :=
    rfl
  rw [shape] at member
  obtain ⟨_, withPolicy, isConfig⟩ := List.mem_flatMap.mp member
  obtain ⟨policy, isPolicy, rfl⟩ := List.mem_map.mp withPolicy
  obtain ⟨sets, isSets, rfl⟩ := List.mem_map.mp isConfig
  exact ⟨policy, isPolicy, sets, isSets, rfl⟩

/-- A buildable configuration with room simulates the vector addition. -/
theorem vectorAdd_simulated
    {numThreads iterations : Nat}
    {strided : Bool}
    {req : KernelResourceRequirements}
    (buildable : config.Buildable)
    (someThreads : 0 < config.blockSize)
    (few : config.blockSize ≤ 2 ^ 31)
    (positive : 0 < config.warpSize)
    (narrow : config.warpSize ≤ 32)
    (someActive : 1 ≤ config.activeSetSize)
    (large : 30000 ≤ config.globalMemorySize)
    (isInt : iterations < 2 ^ 31)
    (apart :
      (numThreads - 1) * VectorAdd.stride strided + iterations * 4 ≤ 10000)
    (built :
      buildBenchmarkGrid numThreads config.blockSize config.warpSize strided =
        .ok grid)
    (room : ∀ block ∈ grid.blocks, SM.fitsEmpty block config req = true)
    (enough :
      grid.iterationBound (generateVectorAddKernel iterations isInt) config <
        fuel)
    (rng : Nat → Nat → Nat → Nat)
    (configIdx : Nat) :
    ∃ result,
      (SweepEngine.executeConfiguration config rng
          (generateVectorAddKernel iterations isInt) grid req configIdx
          fuel).run =
        some (.ok result) := by
  obtain ⟨gpu, isGpu⟩ := GPU.new_succeeds buildable rng
  have inMemory (address : Nat) (small : address < 30000) :
      InMemory gpu.globalMemory.size address := by
    refine ⟨isGlobal_iff.mpr (small.trans (by decide)), ?_⟩
    rw [Memcpy.new_size isGpu]
    exact small.trans_le large
  obtain ⟨after, ran⟩ :=
    GPU.agreeing_threads_complete someThreads positive narrow few built
      (fun _ _ _ _ isBuilt => writeRegisters_blockId isBuilt)
      (VectorAdd.wellFormed isInt) (VectorAdd.does isInt)
      (VectorAdd.threadsKeep inMemory apart)
      (GPU.new_scheduled someActive isGpu)
      (GPU.new_fresh isGpu).cachesInUse room enough
  have computed :
      ∃ occ, OccupancyCalculator.compute config req = .ok occ := by
    unfold OccupancyCalculator.compute
    rw [if_neg (by omega)]
    exact ⟨_, rfl⟩
  obtain ⟨occ, isOcc⟩ := computed
  exact
    ⟨_, fuelled_bind_ok.mpr
      ⟨gpu, congrArg some isGpu, fuelled_bind_ok.mpr
        ⟨after, ran, fuelled_bind_ok.mpr
          ⟨occ, congrArg some isOcc, rfl⟩⟩⟩⟩

/-- A grid of new warps that all start at the first instruction. -/
structure Launchable (grid : Grid) : Prop where
  wellFormed : grid.WellFormed
  unstarted : grid.Unstarted
  untouched : ∀ block ∈ grid.blocks, SM.Untouched block
  atStart :
    ∀ block ∈ grid.blocks,
      ∀ warp ∈ block.warps, warp.simtStack = [] ∧ warp.warpPc = 0
  someWarps : 0 < (grid.blocks.flatMap ThreadBlock.warps).length

/-- The grid of the analysis can be launched. -/
theorem Analysable.launchable
    (analysable : Analysable base)
    (built :
      buildBenchmarkGrid 2048 base.blockSize base.warpSize false = .ok grid) :
    Launchable grid := by
  obtain ⟨_, _, _, _, _, _, someThreads, few, positive, narrow, _, _, _, _, _⟩ :=
    analysable
  obtain ⟨wellFormed, unstarted⟩ :=
    GPU.elementGrid_wellFormed someThreads positive narrow built
      fun _ _ _ _ isBuilt => writeRegisters_blockId isBuilt
  have fresh :=
    GPU.fresh_of_elements someThreads positive narrow few
      (fun _ _ _ _ isBuilt => writeRegisters_blockId isBuilt) built
  have noWrap : 2048 + base.blockSize ≤ 2 ^ 64 := by omega
  exact
    { wellFormed := wellFormed
      unstarted := unstarted
      untouched := fun block member warp isWarp =>
        (fresh block member warp isWarp).1
      atStart :=
        elementGrid_atStart someThreads positive narrow wellFormed built
      someWarps :=
        elementGrid_someWarp someThreads positive narrow noWrap (by norm_num)
          wellFormed built }

/-- The warps of such a grid retire all instructions of the kernel. -/
theorem Launchable.work
    (launchable : Launchable grid)
    (lineSize : Nat) :
    grid.due (generateVectorAddKernel 100 (by decide)) lineSize
        .instructions =
      (grid.blocks.flatMap ThreadBlock.warps).length * 400 := by
  rw [due_instructions launchable.untouched launchable.atStart]
  exact congrArg _ (length_vectorAddInstructions 100)

/-- All configurations of the analysis are simulated. -/
theorem Analysable.simulated
    (analysable : Analysable base)
    (built :
      buildBenchmarkGrid 2048 base.blockSize base.warpSize false = .ok grid)
    (enough :
      grid.iterationBound (generateVectorAddKernel 100 (by decide)) base <
        fuel)
    (rng : Nat → Nat → Nat → Nat → Nat) :
    ∃ results,
      (SweepEngine.runSweep base rng
          (generateVectorAddKernel 100 (by decide)) grid ⟨10, 0⟩
          analysisSpace fuel).run =
        some (.ok results) := by
  have room := analysable.room built
  obtain ⟨l1Ways, l1Policy, l2Dimensions, l2Policy, _, someActive,
    someThreads, few, positive, narrow, _, _, _, _, large⟩ := analysable
  refine fuelled_mapM_succeeds fun entry member => ?_
  obtain ⟨index, found⟩ := List.mem_iff_getElem?.mp member
  rw [List.getElem?_zipIdx] at found
  obtain ⟨config, isConfig, rfl⟩ := Option.map_eq_some_iff.mp found
  obtain ⟨policy, isPolicy, sets, isSets, rfl⟩ :=
    mem_analysisSpace (List.mem_of_getElem? isConfig)
  have buildable :
      ({ base with schedulerPolicy := policy, l1Sets := sets } :
        SystemConfig).Buildable := by
    refine ⟨⟨?_, l1Ways⟩, l1Policy, l2Dimensions, l2Policy, ?_⟩
    · have positiveSets : ∀ sets ∈ [4, 8, 16], 0 < sets := by decide
      exact positiveSets sets isSets
    · have known :
          ∀ policy ∈ ["RR", "GTO", "OldestFirst", "TwoLevel"],
            policy ∈
              ["RR", "Greedy", "Priority", "OldestFirst", "GTO",
                "TwoLevel"] := by
        decide
      exact known policy isPolicy
  exact
    vectorAdd_simulated buildable someThreads few positive narrow someActive
      large (by decide) (by decide) built room enough _ _

/-- The diagnoses of a simulated analysis are classified. -/
theorem classified_of_simulated
    {kernel : Kernel}
    {req : KernelResourceRequirements}
    {rng : Nat → Nat → Nat → Nat → Nat}
    {results : List SimulationResult}
    (untouched : ∀ block ∈ grid.blocks, SM.Untouched block)
    (ran :
      (SweepEngine.runSweep base rng kernel grid req analysisSpace fuel).run =
        some (.ok results))
    {sorting : ArchitecturalAnalyzer.Sorting}
    {result : AnalysisResult}
    (member : result ∈ ArchitecturalAnalyzer.analyze sorting results 0)
    (noWrap : result.simResult.totalCycles * base.numSms < 2 ^ 64) :
    result.primaryBottleneck ≠ .unclassified := by
  have sameResults :=
    ArchitecturalAnalyzer.map_simResult_analyze sorting results 0
  obtain ⟨index, found⟩ := List.mem_iff_getElem?.mp member
  have foundResult : results[index]? = some result.simResult := by
    rw [← sameResults, List.getElem?_map, found]
    rfl
  have isConfig :
      result.simResult.config ∈
        SweepEngine.generateConfigurations base analysisSpace :=
    SweepEngine.runSweep_configs untouched ran ▸
      List.mem_map_of_mem (List.mem_of_getElem? foundResult)
  have sameSms : result.simResult.config.numSms = base.numSms := by
    obtain ⟨_, _, _, _, isVaried⟩ := mem_analysisSpace isConfig
    rw [isVaried]
  obtain ⟨consistent, hasPoint⟩ :=
    SweepEngine.runSweep_hasPoint untouched ran foundResult
      (sameSms.symm ▸ noWrap)
  obtain ⟨analysed, isSame, isDiagnosis⟩ :=
    ArchitecturalAnalyzer.analyze_at sorting 0 foundResult
  obtain rfl := Option.some.inj (found.symm.trans isSame)
  rw [isDiagnosis, ArchitecturalAnalyzer.validate_primaryBottleneck]
  exact
    (@ArchitecturalAnalyzer.diagnoseBottleneck_busy sorting _
      consistent.noReadyWarpCycles hasPoint).1

/--
The analysis always completes, if its base has caches with dimensions and
supported policies and room for a block.  It returns one result for each of the
twelve configurations, all of which retire the same instructions; the best one
of the report has the fewest cycles and the highest IPC of all and is no slower
than the baseline; and no result is left unclassified.
-/
theorem runAnalysis_completes
    (analysable : Analysable base)
    (sorting : ArchitecturalAnalyzer.Sorting)
    (rng : Nat → Nat → Nat → Nat → Nat) :
    ∃ grid,
      buildBenchmarkGrid 2048 base.blockSize base.warpSize false =
          .ok grid ∧
        ∀ fuel,
          grid.iterationBound (generateVectorAddKernel 100 (by decide)) base <
              fuel →
          ∃ analysed best,
            (runAnalysis sorting base rng fuel).run =
                some (.ok analysed) ∧
              analysed.map (fun result => result.simResult.config) =
                SweepEngine.generateConfigurations base analysisSpace ∧
              ReportGenerator.best? analysed = some best ∧
              1 ≤ best.speedup ∧
              ∀ result ∈ analysed,
                result.simResult.instructionsRetired =
                    (grid.blocks.flatMap ThreadBlock.warps).length * 400 ∧
                  best.simResult.totalCycles ≤
                    result.simResult.totalCycles ∧
                  result.simResult.ipc ≤ best.simResult.ipc ∧
                  (result.simResult.totalCycles * base.numSms < 2 ^ 64 →
                    result.primaryBottleneck ≠ .unclassified) := by
  obtain ⟨grid, built⟩ :=
    buildBenchmarkGrid_succeeds 2048 base.blockSize base.warpSize false
  refine ⟨grid, built, fun fuel enough => ?_⟩
  have launchable := analysable.launchable built
  have work := launchable.work base.l1LineSize
  have someWork :=
    work.symm ▸ Nat.mul_pos launchable.someWarps (Nat.succ_pos 399)
  obtain ⟨results, ran⟩ := analysable.simulated built enough rng
  have works :=
    SweepEngine.runSweep_works launchable.wellFormed launchable.unstarted
      launchable.untouched (vectorAdd_oblivious (by decide))
      (fun block member warp isWarp =>
        (launchable.atStart block member warp isWarp).1)
      analysable.someSms ran
  have sameResults :=
    ArchitecturalAnalyzer.map_simResult_analyze sorting results 0
  have configs := SweepEngine.runSweep_configs launchable.untouched ran
  obtain ⟨baselineCycles, compares⟩ :=
    @SweepEngine.analyze_comparison _ _ results sorting 0 _ works someWork
  have someResults : results ≠ [] := by
    rintro rfl
    cases configs
  obtain ⟨baseline, isAnalysed, _, baselineSpeedup⟩ :=
    ArchitecturalAnalyzer.analyze_baseline sorting someResults 0
  obtain ⟨best, isBest⟩ :=
    ReportGenerator.exists_best (List.ne_nil_of_mem isAnalysed)
  obtain ⟨bestMember, fastest⟩ := ReportGenerator.best?_spec isBest
  obtain ⟨bestResult, bestComparison⟩ := compares best bestMember
  refine
    ⟨ArchitecturalAnalyzer.analyze sorting results 0, best, ?_, ?_, isBest,
      baselineSpeedup ▸ fastest baseline isAnalysed, ?_⟩
  · exact
      fuelled_bind_ok.mpr
        ⟨grid, congrArg some built,
          fuelled_bind_ok.mpr ⟨results, ran, rfl⟩⟩
  · rw [← configs]
    conv_rhs => rw [← sameResults, List.map_map]
    rfl
  · intro result member
    obtain ⟨isResult, comparison⟩ := compares result member
    have fewest :=
      (comparison.speedup_le_iff bestComparison).mp (fastest result member)
    refine
      ⟨((works _ isResult).work .instructions).trans work, fewest, ?_, ?_⟩
    · rw [(works _ isResult).ipc, (works _ bestResult).ipc]
      exact
        (SweepEngine.rate_le_rate_iff someWork comparison.someCycles.2
          bestComparison.someCycles.2).mpr fewest
    · exact classified_of_simulated launchable.untouched ran member

end Runs

/-- On two multiprocessors the analysis completes. -/
theorem runAnalysis_completes_pair :
    ∃ fuel analysed best,
      (runAnalysis ArchitecturalAnalyzer.stableSort Memcpy.pairConfig
          (fun _ _ _ _ => 0) fuel).run =
          some (.ok analysed) ∧
        ReportGenerator.best? analysed = some best ∧ 1 ≤ best.speedup := by
  have analysable : Analysable Memcpy.pairConfig := by
    constructor <;> decide
  obtain ⟨grid, _, completes⟩ :=
    runAnalysis_completes analysable ArchitecturalAnalyzer.stableSort
      (fun _ _ _ _ => 0)
  obtain ⟨analysed, best, ran, _, isBest, faster, _⟩ :=
    completes _ (Nat.lt_succ_self _)
  exact ⟨_, analysed, best, ran, isBest, faster⟩

end Benchmarks

end SimSm
