import Mathlib.Data.List.Sort
import Mathlib.Data.Rat.Floor
import Mathlib.Tactic.Linarith
import Mathlib.Tactic.NormNum
import SimSm.Sweep

namespace SimSm

/-!
# The architectural analyzer

Results of a sweep are diagnosed one by one, by scores, and then compared with
each other for evidence.  Doubles are exact rationals, so equalities hold before
rounding; a quotient that has no rational value is `none`.
-/

/-- What one simulation measured. -/
structure SimulationResult where
  config : SystemConfig
  runName : String
  totalCycles : Nat
  instructionsRetired : Nat
  memoryInstructions : Nat
  memoryTransactions : Nat
  l1Hits : Nat
  l1Misses : Nat
  l2Hits : Nat
  l2Misses : Nat
  bankConflicts : Nat
  dirtyEvictions : Nat
  noReadyWarpCycles : Nat
  maxWarpWaitCycles : Nat
  starvationEvents : Nat
  ipc : Rat
  amat : Rat
  occupancy : Rat
  fairness : Rat
  l1HitRate : Rat
  l2HitRate : Rat
  bankConflictRate : Rat
  ipcUtilization : Rat
  deriving DecidableEq

/-- What a diagnosis names. -/
inductive Bottleneck where
  | compute
  | memoryLatency
  | occupancy
  | schedulerInefficiency
  | bankConflicts
  | unclassified
  deriving Repr, DecidableEq

/-- The text of a bottleneck. -/
def Bottleneck.text : Bottleneck → String
  | .compute => "Compute"
  | .memoryLatency => "Memory Latency"
  | .occupancy => "Occupancy"
  | .schedulerInefficiency => "Scheduler Inefficiency"
  | .bankConflicts => "Bank Conflicts"
  | .unclassified => "Unclassified"

/-- How sure a diagnosis is; the texts are `High`, `Medium` and `Low`. -/
inductive Confidence where
  | high
  | medium
  | low
  deriving Repr, DecidableEq

/-- The outcome of a diagnosis. -/
structure Diagnosis where
  primaryBottleneck : Bottleneck
  secondaryBottlenecks : List Bottleneck := []
  contributingFactors : List String := []
  confidence : Confidence
  deriving Repr, DecidableEq

/-- A result with its deltas to the baseline and its diagnosis. -/
structure AnalysisResult extends Diagnosis where
  simResult : SimulationResult
  isBaseline : Bool
  speedup : Rat
  cycleDeltaPct : Option Rat
  ipcDeltaPct : Rat
  amatDeltaPct : Rat
  occupancyDelta : Rat
  fairnessDelta : Rat
  deriving DecidableEq

namespace ArchitecturalAnalyzer

/-- A possible bottleneck, its score and what speaks for it. -/
structure Candidate where
  name : Bottleneck
  score : Rat
  evidence : List String
  deriving DecidableEq

/-- `std::sort` by falling score, whatever it does with equal scores. -/
structure Sorting where
  sort : List Candidate → List Candidate
  isPermutation : ∀ candidates, (sort candidates).Perm candidates
  isSorted :
    ∀ candidates,
      (sort candidates).Pairwise fun first second =>
        second.score ≤ first.score

/-- A candidate that may stand before another one. -/
def Before (first second : Candidate) : Prop :=
  second.score ≤ first.score

instance (first second : Candidate) : Decidable (Before first second) :=
  inferInstanceAs (Decidable (_ ≤ _))

/-- Insertion keeps candidates of one score in order. -/
def stableSort : Sorting where
  sort := List.insertionSort Before
  isPermutation := List.perm_insertionSort Before
  isSorted := fun candidates => by
    have total : Std.Total Before := ⟨fun a b => le_total b.score a.score⟩
    have trans : IsTrans Candidate Before :=
      ⟨fun _ _ _ first second => le_trans second first⟩
    exact List.pairwise_insertionSort Before candidates

/-- `std::to_string` of a double: six decimals, ties to even. -/
def toStringDouble (value : Rat) : String :=
  let scaled : Rat := |value| * 10 ^ 6
  let down : Nat := scaled.floor.toNat
  let rest := scaled - (down : Rat)
  let rounded : Nat :=
    if 1 / 2 < rest ∨ rest = 1 / 2 ∧ down % 2 = 1 then down + 1 else down
  let decimals := toString (rounded % 10 ^ 6)
  (if value < 0 then "-" else "") ++ toString (rounded / 10 ^ 6) ++ "." ++
    "".pushn '0' (6 - decimals.length) ++ decimals

/-- The points of one symptom. -/
def points (symptom : Prop) [Decidable symptom] (score : Rat) : Rat :=
  if symptom then score else 0

/-- The text of one symptom. -/
def noted (symptom : Prop) [Decidable symptom] (text : String) :
    List String :=
  if symptom then [text] else []

section Scores

variable (s : SimulationResult)

/-- The cycles of all multiprocessors, a product in `size_t`. -/
def totalSmCycles : Rat :=
  ((s.totalCycles * s.config.numSms % 2 ^ 64 : Nat) : Rat)

/-- The average memory access time is well above that of a hit. -/
def HighAmat : Prop :=
  s.config.l1Latency * (3 / 2 : Rat) < s.amat

/-- Memory instructions take many transactions. -/
def Uncoalesced : Prop :=
  0 < s.memoryInstructions ∧
    (6 / 5 : Rat) < (s.memoryTransactions : Rat) / s.memoryInstructions

instance : Decidable (HighAmat s) :=
  inferInstanceAs (Decidable (_ < _))

instance : Decidable (Uncoalesced s) :=
  inferInstanceAs (Decidable (_ ∧ _))

/-- The points of the memory latency. -/
def memoryPressure : Rat :=
  points (HighAmat s) 1 + points (s.l1HitRate < 4 / 5) 1 +
      points (Uncoalesced s) 1 +
    points (totalSmCycles s * (1 / 5) < s.noReadyWarpCycles) (1 / 2)

/-- The points of the compute throughput. -/
def computePressure : Rat :=
  points (7 / 10 < s.ipcUtilization) 2 +
    points (s.noReadyWarpCycles < totalSmCycles s * (1 / 10)) 1

/-- The points of the occupancy. -/
def occupancyPressure : Rat :=
  points (s.occupancy < 1 / 2) 1 +
    points
      (totalSmCycles s * (1 / 5) < s.noReadyWarpCycles ∧
        memoryPressure s < 3 / 2) 1

/-- The points of the scheduler. -/
def schedulerPressure : Rat :=
  points (0 < s.starvationEvents) 2 +
      points (500 < s.maxWarpWaitCycles) 1 +
    points
      (s.fairness < 7 / 10 ∧
        totalSmCycles s * (1 / 10) < s.noReadyWarpCycles) (1 / 2)

/-- The points of the bank conflicts. -/
def bankConflictPressure : Rat :=
  points (1 / 10 < s.bankConflictRate) 1 +
    points (totalSmCycles s * (1 / 20) < s.bankConflicts) 1

/-- The compute throughput as a candidate. -/
def computeCandidate : Candidate where
  name := .compute
  score := computePressure s
  evidence :=
    noted (7 / 10 < s.ipcUtilization)
        ("High IPC utilization (" ++ toStringDouble s.ipcUtilization ++
          ")") ++
      noted (s.noReadyWarpCycles < totalSmCycles s * (1 / 10))
        "Low NoReadyWarpCycles"

/-- The memory latency as a candidate. -/
def memoryCandidate : Candidate where
  name := .memoryLatency
  score := memoryPressure s
  evidence :=
    noted (HighAmat s) ("High AMAT (" ++ toStringDouble s.amat ++ ")") ++
      noted (s.l1HitRate < 4 / 5)
        ("Low L1 hit rate (" ++ toStringDouble s.l1HitRate ++ ")") ++
      noted (Uncoalesced s)
        "Uncoalesced accesses driving high memory transactions"

/-- The occupancy as a candidate. -/
def occupancyCandidate : Candidate where
  name := .occupancy
  score := occupancyPressure s
  evidence :=
    noted (s.occupancy < 1 / 2)
        ("Low occupancy (" ++ toStringDouble s.occupancy ++ ")") ++
      noted (totalSmCycles s * (1 / 5) < s.noReadyWarpCycles)
        "High NoReadyWarpCycles without severe memory pressure"

/-- The scheduler as a candidate. -/
def schedulerCandidate : Candidate where
  name := .schedulerInefficiency
  score := schedulerPressure s
  evidence :=
    noted (0 < s.starvationEvents)
        ("Starvation events detected (" ++ toString s.starvationEvents ++
          ")") ++
      noted (500 < s.maxWarpWaitCycles)
        ("High max warp wait cycles (" ++ toString s.maxWarpWaitCycles ++
          ")") ++
      noted (s.fairness < 7 / 10)
        ("Low fairness (" ++ toStringDouble s.fairness ++ ")")

/--
The bank conflicts as a candidate.  Their second text depends on the cycles of
one multiprocessor, their second point on those of all.
-/
def bankConflictCandidate : Candidate where
  name := .bankConflicts
  score := bankConflictPressure s
  evidence :=
    noted (1 / 10 < s.bankConflictRate)
        ("High bank conflict rate (" ++
          toStringDouble s.bankConflictRate ++ ")") ++
      noted ((s.totalCycles : Rat) * (1 / 20) < s.bankConflicts)
        "Bank conflicts represent significant cycle cost"

/-- The five candidates in the order in which they are collected. -/
def candidates : List Candidate :=
  [computeCandidate s, memoryCandidate s, occupancyCandidate s,
    schedulerCandidate s, bankConflictCandidate s]

end Scores

/-- The diagnosis when no candidate has a point. -/
def unclassified : Diagnosis where
  primaryBottleneck := .unclassified
  contributingFactors :=
    ["No dominant architectural bottleneck identified."]
  confidence := .low

/-- How sure a score makes. -/
def confidenceOf (score : Rat) : Confidence :=
  if 5 / 2 ≤ score then
    .high
  else if 3 / 2 ≤ score then
    .medium
  else
    .low

/-- The candidate with the most points, and the others that have some. -/
def diagnoseBottleneck
    (sorting : Sorting)
    (s : SimulationResult) :
    Diagnosis :=
  match sorting.sort (candidates s) with
  -- There are five candidates.
  | [] => unclassified
  | first :: others =>
      if first.score < 1 then
        unclassified
      else
        let secondary := others.filter fun other => 1 ≤ other.score
        let factors :=
          first.evidence ++
            secondary.flatMap fun other =>
              other.evidence.map fun evidence =>
                other.name.text ++ " -> " ++ evidence
        { primaryBottleneck := first.name
          secondaryBottlenecks := secondary.map Candidate.name
          contributingFactors :=
            if factors.isEmpty then
              ["No strong evidence collected."]
            else
              factors
          confidence := confidenceOf first.score }

/-- The change of a positive baseline value, in percent. -/
def deltaPct (baseline target : Rat) : Rat :=
  if 0 < baseline then (target - baseline) / baseline * 100 else 0

/-- First pass: the deltas of a result and its diagnosis by scores. -/
def computeDeltasAndBottlenecks
    (sorting : Sorting)
    (baseline target : SimulationResult)
    (isBaseline : Bool) :
    AnalysisResult where
  toDiagnosis := diagnoseBottleneck sorting target
  simResult := target
  isBaseline := isBaseline
  speedup :=
    if 0 < target.totalCycles then
      (baseline.totalCycles : Rat) / target.totalCycles
    else
      1
  cycleDeltaPct :=
    if 0 < target.totalCycles then
      if baseline.totalCycles = 0 then
        none
      else
        some
          (((target.totalCycles : Rat) - baseline.totalCycles) /
            baseline.totalCycles * 100)
    else
      some 0
  ipcDeltaPct := deltaPct baseline.ipc target.ipc
  amatDeltaPct := deltaPct baseline.amat target.amat
  occupancyDelta := target.occupancy - baseline.occupancy
  fairnessDelta := target.fairness - baseline.fairness

section Evidence

variable (other result : SimulationResult)

/-- How many of the five swept parameters differ. -/
def diffCount : Nat :=
  (other.config.schedulerPolicy != result.config.schedulerPolicy).toNat +
          (other.config.l1Sets != result.config.l1Sets).toNat +
        (other.config.maxRegistersPerSm !=
          result.config.maxRegistersPerSm).toNat +
      (other.config.maxSharedMemoryPerSm !=
        result.config.maxSharedMemoryPerSm).toNat +
    (other.config.maxWarpsPerSm != result.config.maxWarpsPerSm).toNat

/-- One knob of the occupancy alone differs, and it made things better. -/
def validatesOccupancy : Bool :=
  diffCount other result == 1 &&
        (other.config.maxRegistersPerSm !=
            result.config.maxRegistersPerSm ||
          other.config.maxSharedMemoryPerSm !=
              result.config.maxSharedMemoryPerSm ||
            other.config.maxWarpsPerSm != result.config.maxWarpsPerSm) &&
      decide (result.occupancy < other.occupancy) &&
    decide (other.totalCycles < result.totalCycles)

/-- The scheduler alone differs, and it made things better. -/
def improvesScheduler : Bool :=
  other.config.schedulerPolicy != result.config.schedulerPolicy &&
            other.config.l1Sets == result.config.l1Sets &&
          other.config.maxRegistersPerSm ==
            result.config.maxRegistersPerSm &&
        other.config.maxSharedMemoryPerSm ==
          result.config.maxSharedMemoryPerSm &&
      other.config.maxWarpsPerSm == result.config.maxWarpsPerSm &&
    decide (other.totalCycles < result.totalCycles)

end Evidence

/-- Whether another result of the sweep validates an occupancy diagnosis. -/
def foundOccupancySweepEvidence
    (results : List SimulationResult)
    (index : Nat)
    (result : SimulationResult) :
    Bool :=
  results.zipIdx.any fun entry =>
    entry.2 != index && validatesOccupancy entry.1 result

/-- Upgrade or downgrade an occupancy diagnosis by evidence of the sweep. -/
def validateOccupancy
    (results : List SimulationResult)
    (index : Nat)
    (result : SimulationResult)
    (diagnosis : Diagnosis) :
    Diagnosis :=
  if foundOccupancySweepEvidence results index result = true ∧
      diagnosis.primaryBottleneck = .occupancy then
    { diagnosis with
      confidence := .high
      contributingFactors :=
        diagnosis.contributingFactors ++
          ["Sweep evidence validates occupancy limitation: higher " ++
            "occupancy config reduced cycles."] }
  else if diagnosis.primaryBottleneck = .occupancy ∧
      diagnosis.confidence = .medium then
    { diagnosis with
      confidence := .low
      contributingFactors :=
        diagnosis.contributingFactors ++
          ["No configuration sweep found that improved performance by " ++
            "increasing occupancy."] }
  else
    diagnosis

/-- Note for a scheduler diagnosis that another scheduler is better. -/
def noteScheduler
    (results : List SimulationResult)
    (result : SimulationResult)
    (diagnosis : Diagnosis) :
    Diagnosis :=
  if diagnosis.primaryBottleneck = .schedulerInefficiency ∧
      (results.any fun other => improvesScheduler other result) = true then
    { diagnosis with
      contributingFactors :=
        diagnosis.contributingFactors ++
          ["Sweep evidence: Alternative scheduler improved cycles."] }
  else
    diagnosis

/-- Second pass: what the sweep says about one diagnosis. -/
def validate
    (results : List SimulationResult)
    (index : Nat)
    (result : SimulationResult)
    (diagnosis : Diagnosis) :
    Diagnosis :=
  noteScheduler results result
    (validateOccupancy results index result diagnosis)

/-- Diagnose every result, and validate the diagnoses against each other. -/
def analyze
    (sorting : Sorting)
    (results : List SimulationResult)
    (baselineIndex : Nat) :
    List AnalysisResult :=
  let baselineIndex :=
    if results.length ≤ baselineIndex then 0 else baselineIndex
  match results[baselineIndex]? with
  -- There is no result at all.
  | none => []
  | some baseline =>
      results.zipIdx.map fun entry =>
        let first :=
          computeDeltasAndBottlenecks sorting baseline entry.1
            (entry.2 == baselineIndex)
        { first with
          toDiagnosis :=
            validate results entry.2 entry.1 first.toDiagnosis }

section Scoring

variable {s : SimulationResult}

/-- The points of the occupancy alone never make a diagnosis sure. -/
theorem occupancyPressure_le (s : SimulationResult) :
    occupancyPressure s ≤ 2 := by
  unfold occupancyPressure points
  split <;> split <;> norm_num

/-- Every candidate carries its own name. -/
theorem eq_occupancyCandidate
    {candidate : Candidate}
    (member : candidate ∈ candidates s)
    (isOccupancy : candidate.name = .occupancy) :
    candidate = occupancyCandidate s := by
  unfold candidates at member
  simp only [List.mem_cons, List.not_mem_nil, or_false] at member
  rcases member with rfl | rfl | rfl | rfl | rfl
  · cases isOccupancy
  · cases isOccupancy
  · rfl
  · cases isOccupancy
  · cases isOccupancy

/-- A score below the high threshold does not make a diagnosis sure. -/
theorem confidenceOf_ne_high
    {score : Rat}
    (below : score ≤ 2) :
    confidenceOf score ≠ .high := by
  unfold confidenceOf
  rw [if_neg (by linarith)]
  split
  · exact Confidence.noConfusion
  · exact Confidence.noConfusion

/-- Scores alone never give a sure diagnosis of the occupancy. -/
theorem diagnoseBottleneck_ne_high
    {sorting : Sorting}
    (isOccupancy :
      (diagnoseBottleneck sorting s).primaryBottleneck = .occupancy) :
    (diagnoseBottleneck sorting s).confidence ≠ .high := by
  unfold diagnoseBottleneck at isOccupancy ⊢
  cases sorted : sorting.sort (candidates s) with
  | nil => rw [sorted] at isOccupancy; cases isOccupancy
  | cons first others =>
      rw [sorted] at isOccupancy
      dsimp only at isOccupancy ⊢
      by_cases low : first.score < 1
      · rw [if_pos low] at isOccupancy
        cases isOccupancy
      · rw [if_neg low] at isOccupancy ⊢
        have member : first ∈ candidates s :=
          (sorting.isPermutation _).mem_iff.mp
            (sorted ▸ List.mem_cons_self)
        have same := eq_occupancyCandidate member isOccupancy
        exact confidenceOf_ne_high (same ▸ occupancyPressure_le s)

end Scoring

section Validation

variable {diagnosis : Diagnosis}

/-- A note changes neither what a diagnosis names nor how sure it is. -/
theorem noteScheduler_same
    (results : List SimulationResult)
    (result : SimulationResult)
    (diagnosis : Diagnosis) :
    (noteScheduler results result diagnosis).primaryBottleneck =
        diagnosis.primaryBottleneck ∧
      (noteScheduler results result diagnosis).confidence =
        diagnosis.confidence := by
  unfold noteScheduler
  split
  · exact ⟨rfl, rfl⟩
  · exact ⟨rfl, rfl⟩

/-- Evidence never changes what a diagnosis names. -/
theorem validate_primaryBottleneck
    (results : List SimulationResult)
    (index : Nat)
    (result : SimulationResult)
    (diagnosis : Diagnosis) :
    (validate results index result diagnosis).primaryBottleneck =
      diagnosis.primaryBottleneck := by
  unfold validate
  rw [(noteScheduler_same _ _ _).1]
  unfold validateOccupancy
  split
  · rfl
  · split
    · rfl
    · rfl

/-- Evidence of the sweep alone says how sure an occupancy diagnosis is. -/
theorem validate_confidence_of_occupancy
    (results : List SimulationResult)
    (index : Nat)
    (result : SimulationResult)
    (isOccupancy : diagnosis.primaryBottleneck = .occupancy)
    (notHigh : diagnosis.confidence ≠ .high) :
    (validate results index result diagnosis).confidence =
      if foundOccupancySweepEvidence results index result = true then
        .high
      else
        .low := by
  unfold validate
  rw [(noteScheduler_same _ _ _).2]
  unfold validateOccupancy
  by_cases found : foundOccupancySweepEvidence results index result = true
  · rw [if_pos ⟨found, isOccupancy⟩, if_pos found]
  · rw [if_neg (fun both => found both.1), if_neg found]
    cases confidence : diagnosis.confidence with
    | high => exact absurd confidence notHigh
    | medium => rw [if_pos ⟨isOccupancy, rfl⟩]
    | low =>
        rw [if_neg (fun both => Confidence.noConfusion both.2), confidence]

/-- Every other diagnosis stays as sure as its scores made it. -/
theorem validate_confidence_of_ne
    (results : List SimulationResult)
    (index : Nat)
    (result : SimulationResult)
    (notOccupancy : diagnosis.primaryBottleneck ≠ .occupancy) :
    (validate results index result diagnosis).confidence =
      diagnosis.confidence := by
  unfold validate
  rw [(noteScheduler_same _ _ _).2]
  unfold validateOccupancy
  rw [if_neg (fun both => notOccupancy both.2),
    if_neg (fun both => notOccupancy both.1)]

end Validation

section Sweeps

open SweepEngine

/--
The second configuration is the first with another value of one of the three
limits that bound the occupancy.
-/
def OneKnobApart (config other : SystemConfig) : Prop :=
  (other.maxRegistersPerSm ≠ config.maxRegistersPerSm ∧
      other = withRegisters config other.maxRegistersPerSm) ∨
    (other.maxSharedMemoryPerSm ≠ config.maxSharedMemoryPerSm ∧
        other = withSharedMemory config other.maxSharedMemoryPerSm) ∨
      other.maxWarpsPerSm ≠ config.maxWarpsPerSm ∧
        other = withWarps config other.maxWarpsPerSm

/-- One of five differs and it is one of the last three. -/
theorem oneOfFive
    (policy sets registers sharedMemory warps : Bool) :
    (policy.toNat + sets.toNat + registers.toNat + sharedMemory.toNat +
            warps.toNat == 1 &&
        (registers || sharedMemory || warps)) =
      (!policy && !sets &&
        (registers && !sharedMemory && !warps ||
          !registers && sharedMemory && !warps ||
          !registers && !sharedMemory && warps)) := by
  revert policy sets registers sharedMemory warps
  decide

/-- A configuration of a sweep is its base with five values. -/
theorem exists_of_mem
    {base : SystemConfig}
    {space : ParameterSpace}
    {config : SystemConfig}
    (member : config ∈ generateConfigurations base space) :
    ∃ (policy : String) (sets registers sharedMemory warps : Nat),
      config =
        { base with
          schedulerPolicy := policy
          l1Sets := sets
          maxRegistersPerSm := registers
          maxSharedMemoryPerSm := sharedMemory
          maxWarpsPerSm := warps } :=
  ⟨_, _, _, _, _, eq_of_mem_generateConfigurations member⟩

/--
Within a sweep the comparison of five parameters finds the configurations that
are one knob apart, since no other field varies.
-/
theorem validatesOccupancy_iff
    {base : SystemConfig}
    {space : ParameterSpace}
    {other result : SimulationResult}
    (otherSwept : other.config ∈ generateConfigurations base space)
    (swept : result.config ∈ generateConfigurations base space) :
    validatesOccupancy other result = true ↔
      OneKnobApart result.config other.config ∧
        result.occupancy < other.occupancy ∧
        other.totalCycles < result.totalCycles := by
  unfold validatesOccupancy diffCount
  rw [Bool.and_eq_true, Bool.and_eq_true, decide_eq_true_iff,
    decide_eq_true_iff, oneOfFive, and_assoc]
  refine and_congr_left' ?_
  obtain ⟨policy, sets, registers, sharedMemory, warps, isConfig⟩ :=
    exists_of_mem swept
  obtain ⟨policy', sets', registers', sharedMemory', warps', isOther⟩ :=
    exists_of_mem otherSwept
  rw [isConfig, isOther]
  unfold OneKnobApart withRegisters withSharedMemory withWarps
  simp only [SystemConfig.mk.injEq]
  grind

/-- A configuration is not one knob apart from itself. -/
theorem not_oneKnobApart_self (config : SystemConfig) :
    ¬ OneKnobApart config config := by
  rintro (⟨differs, _⟩ | ⟨differs, _⟩ | ⟨differs, _⟩)
  · exact differs rfl
  · exact differs rfl
  · exact differs rfl

/-- A matched configuration had a higher occupancy and took fewer cycles. -/
def Validated
    (results : List SimulationResult)
    (result : SimulationResult) : Prop :=
  ∃ (position : Nat) (other : SimulationResult),
    results[position]? = some other ∧
      OneKnobApart result.config other.config ∧
      result.occupancy < other.occupancy ∧
      other.totalCycles < result.totalCycles

/-- Within a sweep the search finds evidence exactly if there is some. -/
theorem foundOccupancySweepEvidence_iff
    {base : SystemConfig}
    {space : ParameterSpace}
    {results : List SimulationResult}
    (swept :
      results.map SimulationResult.config =
        generateConfigurations base space)
    {index : Nat}
    {result : SimulationResult}
    (found : results[index]? = some result) :
    foundOccupancySweepEvidence results index result = true ↔
      Validated results result := by
  have inSweep :
      ∀ (position : Nat) (other : SimulationResult),
        results[position]? = some other →
        other.config ∈ generateConfigurations base space :=
    fun position other atPosition =>
      swept ▸
        List.mem_map_of_mem (List.mem_of_getElem? atPosition)
  unfold foundOccupancySweepEvidence
  rw [List.any_eq_true]
  constructor
  · rintro ⟨⟨other, position⟩, member, validates⟩
    rw [List.mem_zipIdx_iff_getElem?] at member
    rw [Bool.and_eq_true,
      validatesOccupancy_iff (inSweep _ _ member) (inSweep _ _ found)]
      at validates
    exact ⟨position, other, member, validates.2⟩
  · rintro ⟨position, other, atPosition, apart, better⟩
    refine
      ⟨(other, position), List.mem_zipIdx_iff_getElem?.mpr atPosition, ?_⟩
    have elsewhere : position ≠ index := by
      rintro rfl
      rw [found] at atPosition
      cases atPosition
      exact not_oneKnobApart_self _ apart
    rw [Bool.and_eq_true, bne_iff_ne,
      validatesOccupancy_iff (inSweep _ _ atPosition) (inSweep _ _ found)]
    exact ⟨elsewhere, apart, better⟩

/-- Every result is analysed at its own position. -/
theorem analyze_at
    (sorting : Sorting)
    {results : List SimulationResult}
    (baselineIndex : Nat)
    {index : Nat}
    {result : SimulationResult}
    (found : results[index]? = some result) :
    ∃ analysed,
      (analyze sorting results baselineIndex)[index]? = some analysed ∧
        analysed.toDiagnosis =
          validate results index result
            (diagnoseBottleneck sorting result) := by
  obtain ⟨inside, _⟩ := List.getElem?_eq_some_iff.mp found
  unfold analyze
  dsimp only
  generalize baselineIs :
    (if results.length ≤ baselineIndex then 0 else baselineIndex) =
      baselinePosition
  have baselineInside : baselinePosition < results.length := by
    rw [← baselineIs]
    split
    · omega
    · omega
  rw [List.getElem?_eq_getElem baselineInside]
  dsimp only
  rw [List.getElem?_map, List.getElem?_zipIdx, found, Option.map_some,
    Option.map_some, Nat.zero_add]
  apply Exists.intro
  exact ⟨rfl, rfl⟩

/-- There is one analysis for each result. -/
theorem length_analyze
    (sorting : Sorting)
    (results : List SimulationResult)
    (baselineIndex : Nat) :
    (analyze sorting results baselineIndex).length = results.length := by
  unfold analyze
  dsimp only
  split
  case h_1 missing =>
    rw [List.getElem?_eq_none_iff] at missing
    split at missing <;> simp only [List.length_nil] <;> omega
  case h_2 => rw [List.length_map, List.length_zipIdx]

/--
Occupancy verdicts rest exactly on matched configurations: a diagnosis of the
occupancy is sure if the sweep holds a configuration with one other occupancy
limit that reached a higher occupancy in fewer cycles, and unsure otherwise.
Any other diagnosis is as sure wherever its result is analysed.
-/
theorem analyze_occupancyVerdicts
    (sorting : Sorting)
    (base : SystemConfig)
    (space : ParameterSpace)
    (results : List SimulationResult)
    (swept :
      results.map SimulationResult.config =
        generateConfigurations base space)
    (baselineIndex : Nat) :
    (analyze sorting results baselineIndex).length = results.length ∧
      ∀ (index : Nat) (result : SimulationResult),
        results[index]? = some result →
        ∃ analysed,
          (analyze sorting results baselineIndex)[index]? =
              some analysed ∧
            (analysed.primaryBottleneck = .occupancy →
              (analysed.confidence = .high ↔ Validated results result) ∧
                (analysed.confidence ≠ .high →
                  analysed.confidence = .low)) ∧
            (analysed.primaryBottleneck ≠ .occupancy →
              ∀ (others : List SimulationResult)
                (otherBaseline otherIndex : Nat),
                others[otherIndex]? = some result →
                ∃ again,
                  (analyze sorting others otherBaseline)[otherIndex]? =
                      some again ∧
                    again.primaryBottleneck = analysed.primaryBottleneck ∧
                    again.confidence = analysed.confidence) := by
  refine ⟨length_analyze _ _ _, fun index result found => ?_⟩
  obtain ⟨analysed, atIndex, isValidated⟩ :=
    analyze_at sorting baselineIndex found
  have primary :
      analysed.primaryBottleneck =
        (diagnoseBottleneck sorting result).primaryBottleneck := by
    rw [isValidated, validate_primaryBottleneck]
  refine ⟨analysed, atIndex, fun isOccupancy => ?_, fun notOccupancy => ?_⟩
  · rw [primary] at isOccupancy
    rw [isValidated,
      validate_confidence_of_occupancy _ _ _ isOccupancy
        (diagnoseBottleneck_ne_high isOccupancy),
      ← foundOccupancySweepEvidence_iff swept found]
    split
    case isTrue validated =>
      exact
        ⟨⟨fun _ => validated, fun _ => rfl⟩, fun unsure => absurd rfl unsure⟩
    case isFalse missing =>
      refine ⟨⟨fun high => ?_, fun validated => ?_⟩, fun _ => rfl⟩
      · cases high
      · exact absurd validated missing
  · rintro others otherBaseline otherIndex atOther
    obtain ⟨again, atAgain, isAgain⟩ :=
      analyze_at sorting otherBaseline atOther
    rw [primary] at notOccupancy
    refine ⟨again, atAgain, ?_, ?_⟩
    · rw [primary, isAgain, validate_primaryBottleneck]
    · rw [isValidated, isAgain, validate_confidence_of_ne _ _ _ notOccupancy,
        validate_confidence_of_ne _ _ _ notOccupancy]

/-- A system of one multiprocessor with a warp limit. -/
def warpLimited (warps : Nat) : SystemConfig where
  numSms := 1
  warpSize := 32
  blockSize := 32
  maxThreadsPerSm := 2048
  maxBlocksPerSm := 16
  maxSharedMemoryPerSm := 65536
  maxRegistersPerSm := 65536
  maxWarpsPerSm := warps

/-- A run that found no warp ready in half of ten thousand cycles. -/
def waitingRun
    (warps totalCycles : Nat)
    (occupancy : Rat) :
    SimulationResult where
  config := warpLimited warps
  runName := "vector_add"
  totalCycles := totalCycles
  instructionsRetired := 0
  memoryInstructions := 0
  memoryTransactions := 0
  l1Hits := 0
  l1Misses := 0
  l2Hits := 0
  l2Misses := 0
  bankConflicts := 0
  dirtyEvictions := 0
  noReadyWarpCycles := 5000
  maxWarpWaitCycles := 0
  starvationEvents := 0
  ipc := 0
  amat := 5
  occupancy := occupancy
  fairness := 1
  l1HitRate := 9 / 10
  l2HitRate := 0
  bankConflictRate := 0
  ipcUtilization := 0

/-- Scores name the occupancy of such a run. -/
theorem diagnoseBottleneck_waitingRun :
    (diagnoseBottleneck stableSort
        (waitingRun 64 10000 (2 / 5))).primaryBottleneck =
      .occupancy := by
  decide +kernel

/-- Twice the warps, a higher occupancy and fewer cycles make it sure. -/
theorem analyze_occupancyVerdicts_twoLimits :
    ∃ analysed,
      (analyze stableSort
            [waitingRun 64 10000 (2 / 5), waitingRun 128 8000 (1 / 2)]
            0)[0]? =
          some analysed ∧
        analysed.primaryBottleneck = .occupancy ∧
        analysed.confidence = .high := by
  obtain ⟨analysed, atIndex, verdict, _⟩ :=
    (analyze_occupancyVerdicts stableSort (warpLimited 64)
      { maxWarpsPerSm := [64, 128] }
      [waitingRun 64 10000 (2 / 5), waitingRun 128 8000 (1 / 2)]
      (by decide) 0).2 0 (waitingRun 64 10000 (2 / 5)) rfl
  obtain ⟨validated, same, isValidated⟩ :=
    @analyze_at stableSort
      [waitingRun 64 10000 (2 / 5), waitingRun 128 8000 (1 / 2)] 0 0
      (waitingRun 64 10000 (2 / 5)) rfl
  have isOccupancy : analysed.primaryBottleneck = .occupancy := by
    rw [← Option.some.inj (same.symm.trans atIndex), isValidated,
      validate_primaryBottleneck, diagnoseBottleneck_waitingRun]
  refine
    ⟨analysed, atIndex, isOccupancy,
      (verdict isOccupancy).1.mpr
        ⟨1, waitingRun 128 8000 (1 / 2), rfl, ?_, ?_, ?_⟩⟩
  · exact Or.inr (Or.inr ⟨by decide, rfl⟩)
  · unfold waitingRun
    norm_num
  · decide

end Sweeps

end ArchitecturalAnalyzer

end SimSm
