import SimSm.Simulation

namespace SimSm

/-!
# What the analyzer can say of simulated sweeps

A simulation never counts a cycle without a ready warp.  The analyzer takes this
for a busy machine: something always has a point, and the occupancy never has
more than one.
-/

open Outcome

namespace ArchitecturalAnalyzer

section Scores

variable {s : SimulationResult}

/-- Some symptom has at least no points. -/
theorem points_nonneg
    {symptom : Prop}
    [Decidable symptom]
    {score : Rat}
    (nonneg : 0 ≤ score) :
    0 ≤ points symptom score := by
  unfold points
  split
  · exact nonneg
  · exact le_refl _

/-- Without idle cycles, cycles are a point for the compute throughput. -/
theorem one_le_computePressure
    (neverIdle : s.noReadyWarpCycles = 0)
    (ran : 0 < totalSmCycles s) :
    1 ≤ computePressure s := by
  have busy :
      (s.noReadyWarpCycles : Rat) < totalSmCycles s * (1 / 10) := by
    rw [neverIdle]
    push_cast
    linarith
  have utilized :=
    @points_nonneg (7 / 10 < s.ipcUtilization) _ 2 (by norm_num)
  unfold computePressure
  rw [@points.eq_def (_ < totalSmCycles s * (1 / 10)), if_pos busy]
  linarith

/-- Without hits the memory latency has a point. -/
theorem one_le_memoryPressure
    (missed : s.l1HitRate < 4 / 5) :
    1 ≤ memoryPressure s := by
  have slow := @points_nonneg (HighAmat s) _ 1 (by norm_num)
  have spread := @points_nonneg (Uncoalesced s) _ 1 (by norm_num)
  have idle :=
    @points_nonneg (totalSmCycles s * (1 / 5) < s.noReadyWarpCycles) _
      (1 / 2) (by norm_num)
  unfold memoryPressure
  rw [@points.eq_def (s.l1HitRate < 4 / 5), if_pos missed]
  linarith

/-- Without idle cycles the occupancy has one point at most. -/
theorem occupancyPressure_le_one
    (neverIdle : s.noReadyWarpCycles = 0) :
    occupancyPressure s ≤ 1 := by
  have cycles : 0 ≤ totalSmCycles s := Nat.cast_nonneg _
  have notIdle :
      ¬ (totalSmCycles s * (1 / 5) < s.noReadyWarpCycles ∧
        memoryPressure s < 3 / 2) := by
    rintro ⟨idle, _⟩
    rw [neverIdle] at idle
    push_cast at idle
    linarith
  unfold occupancyPressure
  rw [@points.eq_def (_ ∧ _), if_neg notIdle, points]
  split <;> norm_num

/-- Starvation and a long wait are three points for the scheduler. -/
theorem three_le_schedulerPressure
    (starved : 0 < s.starvationEvents)
    (waited : 500 < s.maxWarpWaitCycles) :
    3 ≤ schedulerPressure s := by
  have unfair :=
    @points_nonneg
      (s.fairness < 7 / 10 ∧
        totalSmCycles s * (1 / 10) < s.noReadyWarpCycles) _
      (1 / 2) (by norm_num)
  unfold schedulerPressure
  rw [@points.eq_def (0 < s.starvationEvents), if_pos starved,
    @points.eq_def (500 < s.maxWarpWaitCycles), if_pos waited]
  linarith

end Scores

section Sorting

/-- The first candidate has the most points. -/
theorem Sorting.first_score
    (sorting : Sorting)
    {all others : List Candidate}
    {first : Candidate}
    (sorted : sorting.sort all = first :: others) :
    first ∈ all ∧ ∀ candidate ∈ all, candidate.score ≤ first.score := by
  have permuted := sorting.isPermutation all
  have ordered := sorting.isSorted all
  rw [sorted] at permuted ordered
  refine ⟨permuted.mem_iff.mp List.mem_cons_self, fun candidate member => ?_⟩
  rcases List.mem_cons.mp (permuted.mem_iff.mpr member) with rfl | later
  · exact le_refl _
  · exact (List.pairwise_cons.mp ordered).1 candidate later

/-- A stable sort prefers candidates that were collected earlier. -/
theorem stableSort_first
    {earlier later others : List Candidate}
    {first : Candidate}
    (sorted : stableSort.sort (earlier ++ later) = first :: others) :
    first ∈ earlier ∨
      ∀ candidate ∈ earlier, candidate.score < first.score := by
  induction earlier generalizing others with
  | nil => exact .inr fun _ member => (List.not_mem_nil member).elim
  | cons candidate rest inductionHypothesis =>
      change
        List.orderedInsert Before candidate
            (stableSort.sort (rest ++ later)) =
          first :: others at sorted
      cases sortedRest : stableSort.sort (rest ++ later) with
      | nil =>
          rw [sortedRest] at sorted
          cases sorted
          exact .inl List.mem_cons_self
      | cons best tail =>
          rw [sortedRest, List.orderedInsert] at sorted
          split at sorted
          · cases sorted
            exact .inl List.mem_cons_self
          · rename_i notBefore
            cases sorted
            have below : candidate.score < first.score :=
              not_le.mp notBefore
            rcases inductionHypothesis sortedRest with inRest | above
            · exact .inl (List.mem_cons_of_mem _ inRest)
            · exact .inr (List.forall_mem_cons.mpr ⟨below, above⟩)

end Sorting

section Diagnoses

variable {sorting : Sorting}
variable {s : SimulationResult}

/-- A diagnosis names the first candidate, if that has a point. -/
theorem diagnoseBottleneck_first
    (sorting : Sorting)
    (s : SimulationResult) :
    ∃ first others,
      sorting.sort (candidates s) = first :: others ∧
        (1 ≤ first.score →
          (diagnoseBottleneck sorting s).primaryBottleneck = first.name ∧
            (diagnoseBottleneck sorting s).confidence =
              confidenceOf first.score) := by
  cases sorted : sorting.sort (candidates s) with
  | nil =>
      have permuted := (sorting.isPermutation (candidates s)).length_eq
      rw [sorted] at permuted
      cases permuted
  | cons first others =>
      refine ⟨first, others, rfl, fun hasPoint => ?_⟩
      unfold diagnoseBottleneck
      rw [sorted]
      dsimp only
      rw [if_neg (not_lt.mpr hasPoint)]
      exact ⟨rfl, rfl⟩

/-- Every candidate is one of the five. -/
theorem name_ne_unclassified
    {candidate : Candidate}
    (member : candidate ∈ candidates s) :
    candidate.name ≠ .unclassified := by
  unfold candidates at member
  simp only [List.mem_cons, List.not_mem_nil, or_false] at member
  rcases member with rfl | rfl | rfl | rfl | rfl <;>
    exact Bottleneck.noConfusion

/-- What is diagnosed when the machine is taken for busy. -/
theorem diagnoseBottleneck_busy
    (neverIdle : s.noReadyWarpCycles = 0)
    (hasPoint : 1 ≤ computePressure s ∨ 1 ≤ memoryPressure s) :
    (diagnoseBottleneck sorting s).primaryBottleneck ≠ .unclassified ∧
      (sorting = stableSort →
        (diagnoseBottleneck sorting s).primaryBottleneck ≠ .occupancy) ∧
      (0 < s.starvationEvents →
        500 < s.maxWarpWaitCycles →
        (diagnoseBottleneck sorting s).primaryBottleneck ≠ .occupancy ∧
          (diagnoseBottleneck sorting s).confidence = .high) := by
  obtain ⟨first, others, sorted, named⟩ :=
    diagnoseBottleneck_first sorting s
  obtain ⟨member, most⟩ := sorting.first_score sorted
  have point : 1 ≤ first.score := by
    rcases hasPoint with compute | memory
    · exact compute.trans (most (computeCandidate s) (by simp [candidates]))
    · exact memory.trans (most (memoryCandidate s) (by simp [candidates]))
  obtain ⟨isName, isConfidence⟩ := named point
  rw [isName, isConfidence]
  refine ⟨name_ne_unclassified member, ?_, ?_⟩
  · rintro rfl isOccupancy
    have same := eq_occupancyCandidate member isOccupancy
    subst same
    have few : (occupancyCandidate s).score ≤ 1 :=
      occupancyPressure_le_one neverIdle
    rcases
      @stableSort_first [computeCandidate s, memoryCandidate s]
        [occupancyCandidate s, schedulerCandidate s,
          bankConflictCandidate s]
        others _ sorted with isEarlier | above
    · simp only [List.mem_cons, List.not_mem_nil, or_false] at isEarlier
      rcases isEarlier with same | same
      · exact Bottleneck.noConfusion (congrArg Candidate.name same)
      · exact Bottleneck.noConfusion (congrArg Candidate.name same)
    · rcases hasPoint with compute | memory
      · exact
          (above (computeCandidate s) (by simp)).not_ge
            (few.trans compute)
      · exact
          (above (memoryCandidate s) (by simp)).not_ge (few.trans memory)
  · intro starved waited
    have three : 3 ≤ first.score :=
      (three_le_schedulerPressure starved waited).trans
        (most (schedulerCandidate s) (by simp [candidates]))
    constructor
    · intro isOccupancy
      have same := eq_occupancyCandidate member isOccupancy
      have few : first.score ≤ 1 := by
        rw [same]
        exact occupancyPressure_le_one neverIdle
      linarith
    · rw [confidenceOf, if_pos (by linarith)]

end Diagnoses

end ArchitecturalAnalyzer

namespace SweepEngine

open ArchitecturalAnalyzer

/-- The candidates of a simulation have a point. -/
theorem simulated_hasPoint
    {result : SimulationResult}
    (consistent : result.Consistent)
    (isRate :
      result.l1HitRate =
        rate result.l1Hits (result.l1Hits + result.l1Misses))
    (noWrap : result.totalCycles * result.config.numSms < 2 ^ 64) :
    1 ≤ computePressure result ∨ 1 ≤ memoryPressure result := by
  have isTotal :
      totalSmCycles result =
        ((result.totalCycles * result.config.numSms : Nat) : Rat) := by
    rw [totalSmCycles, Nat.mod_eq_of_lt noWrap]
  rcases Nat.eq_zero_or_pos (result.totalCycles * result.config.numSms) with
    none | some
  · refine .inr (one_le_memoryPressure ?_)
    -- no cycle, no instruction, no access
    have instructions := consistent.instructionsRetired
    rw [Nat.mul_comm, none] at instructions
    have memory := consistent.memoryInstructions
    have transactions := consistent.memoryTransactions
    have accesses := consistent.l1Accesses
    rw [isRate, rate, if_neg (by omega)]
    norm_num
  · refine .inl (one_le_computePressure consistent.noReadyWarpCycles ?_)
    rw [isTotal]
    exact Nat.cast_pos.mpr some

section Sweeps

variable {base : SystemConfig}
variable {rng : Nat → Nat → Nat → Nat → Nat}
variable {kernel : Kernel}
variable {grid : Grid}
variable {req : KernelResourceRequirements}
variable {space : ParameterSpace}
variable {fuel : Nat}
variable {results : List SimulationResult}

/-- Every result of a simulated sweep gives the analyzer a point. -/
theorem runSweep_hasPoint
    (untouched : ∀ block ∈ grid.blocks, SM.Untouched block)
    (ran :
      (runSweep base rng kernel grid req space fuel).run =
        some (.ok results))
    {index : Nat}
    {result : SimulationResult}
    (found : results[index]? = some result)
    (noWrap : result.totalCycles * result.config.numSms < 2 ^ 64) :
    result.Consistent ∧
      (1 ≤ computePressure result ∨ 1 ≤ memoryPressure result) := by
  obtain ⟨entry, _, after, occ, isResult, consistent⟩ :=
    Pointwise.origin (runSweep_at untouched ran) found
  have isRate :
      result.l1HitRate =
        rate result.l1Hits (result.l1Hits + result.l1Misses) := by
    rw [isResult]
    rfl
  exact ⟨consistent, simulated_hasPoint consistent isRate noWrap⟩

/--
No result of a simulated sweep is ever left unclassified; with a sort that keeps
the order of equal scores none is ever blamed on the occupancy, so the evidence
of the sweep is never asked for; and a starved warp always makes the diagnosis
sure.
-/
theorem runSweep_diagnosed
    (untouched : ∀ block ∈ grid.blocks, SM.Untouched block)
    (ran :
      (runSweep base rng kernel grid req space fuel).run =
        some (.ok results))
    (sorting : Sorting)
    (baselineIndex : Nat)
    {index : Nat}
    {result : SimulationResult}
    (found : results[index]? = some result)
    (noWrap : result.totalCycles * result.config.numSms < 2 ^ 64) :
    ∃ analysed : AnalysisResult,
      (analyze sorting results baselineIndex)[index]? = some analysed ∧
        analysed.primaryBottleneck ≠ .unclassified ∧
        (sorting = stableSort →
          analysed.primaryBottleneck ≠ .occupancy) ∧
        (0 < result.starvationEvents →
          analysed.primaryBottleneck ≠ .occupancy ∧
            analysed.confidence = .high) := by
  obtain ⟨consistent, hasPoint⟩ :=
    runSweep_hasPoint untouched ran found noWrap
  obtain ⟨analysed, isAnalysed, isDiagnosis⟩ :=
    analyze_at sorting baselineIndex found
  obtain ⟨classified, notOccupancy, starves⟩ :=
    @diagnoseBottleneck_busy sorting result consistent.noReadyWarpCycles
      hasPoint
  refine ⟨analysed, isAnalysed, ?_⟩
  rw [isDiagnosis, validate_primaryBottleneck]
  refine ⟨classified, notOccupancy, fun starved => ?_⟩
  have waited := consistent.starvationEvents starved
  obtain ⟨named, sure⟩ := starves starved (by omega)
  exact ⟨named, by rw [validate_confidence_of_ne _ _ _ named, sure]⟩

end Sweeps

/-- The first result of a sweep over two sizes of the L1 cache. -/
theorem runSweep_diagnosed_pair :
    ∃ results analysed,
      pairSweep = some (.ok results) ∧
        (analyze stableSort results 0)[0]? = some analysed ∧
        analysed.primaryBottleneck ≠ .unclassified ∧
        analysed.primaryBottleneck ≠ .occupancy := by
  obtain ⟨results, ran⟩ := @fuelled_ok _ _ pairSweep (by decide +kernel)
  have short :
      (pairSweep.any fun outcome =>
          outcome.toOption.any fun results =>
            results[0]?.any fun result =>
              decide (result.totalCycles * result.config.numSms < 2 ^ 64)) =
        true := by
    decide +kernel
  rw [ran, Option.any_some, Except.toOption, Option.any_some] at short
  obtain ⟨result, found, noWrap⟩ := (Option.any_eq_true _ _).mp short
  obtain ⟨analysed, isAnalysed, classified, notOccupancy, _⟩ :=
    runSweep_diagnosed pairGrid_untouched ran stableSort 0 found
      (of_decide_eq_true noWrap)
  exact ⟨results, analysed, ran, isAnalysed, classified, notOccupancy rfl⟩

end SweepEngine

end SimSm
