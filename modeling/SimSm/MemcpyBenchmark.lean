import SimSm.Memcpy
import Mathlib.Tactic.NormNum.Prime

namespace SimSm

/-!
# The self-check of the copy benchmark

The benchmark fills the sources, clears the copies, runs the kernel and compares
each copy with the value that the host wrote for its thread and its iteration.
The kernel copies whatever the sources hold, so the check passes if and only if
the host wrote no cell twice with different values.
-/

open Outcome

/-- Store one value after the other. -/
def GlobalMemory.storeAll
    (memory : GlobalMemory)
    (values : List (Nat × Word)) :
    Except SimError GlobalMemory :=
  values.foldlM (fun memory entry => memory.store entry.1 entry.2) memory

namespace Benchmarks

/-- The threads and iterations, in the order of the host's two loops. -/
def memcpyLoops (numThreads iterations : Nat) : List (Nat × Nat) :=
  (List.range numThreads).flatMap fun i =>
    (List.range iterations).map fun iter => (i, iter)

/-- The source of one thread in one iteration, in the host's `size_t`. -/
def memcpyCell (pattern : String) (numThreads : Nat) (loop : Nat × Nat) : Nat :=
  (memcpyOffset pattern numThreads loop.1 +
    loop.2 * memcpyStride pattern numThreads) % 2 ^ 64

/-- The value that the host writes there. -/
def memcpyValue (loop : Nat × Nat) : Nat :=
  (loop.1 + loop.2) % 2 ^ 64 % 255 + 1

/-- Where the host expects to find it afterwards. -/
def memcpyCopy (pattern : String) (numThreads : Nat) (loop : Nat × Nat) : Nat :=
  (1000000 + memcpyCell pattern numThreads loop) % 2 ^ 64

/-- What the host stores before the launch. -/
def memcpyInit
    (pattern : String)
    (numThreads iterations : Nat) :
    List (Nat × Word) :=
  (memcpyLoops numThreads iterations).flatMap fun loop =>
    [(memcpyCell pattern numThreads loop,
        BitVec.ofNat 32 (memcpyValue loop)),
      (memcpyCopy pattern numThreads loop, 0)]

/-- Compare the copies with what the host wrote. -/
def memcpyCheck
    (memory : GlobalMemory)
    (pattern : String)
    (numThreads iterations : Nat) :
    Except SimError Bool :=
  (memcpyLoops numThreads iterations).foldlM
    (fun correct loop => do
      let value ← memory.load (memcpyCopy pattern numThreads loop)
      pure (correct && value == BitVec.ofNat 32 (memcpyValue loop)))
    true

/-- The benchmark asks for ten megabytes of global memory at least. -/
def memcpyConfig (config : SystemConfig) : SystemConfig :=
  if config.globalMemorySize < 10 * 1024 * 1024 then
    { config with globalMemorySize := 10 * 1024 * 1024 }
  else
    config

/-- The GPU and the grid at the launch. -/
def memcpySetup
    (config : SystemConfig)
    (rng : Nat → Nat → Nat → Nat)
    (numThreads : Nat)
    (pattern : String) :
    Except SimError (GPU Scheduler × Grid) := do
  let gpu ←
    GPU.new (memcpyConfig config) SchedulerFactory.createScheduler rng
  let memory ← gpu.globalMemory.storeAll (memcpyInit pattern numThreads 10)
  let grid ←
    buildMemcpyGrid numThreads config.blockSize config.warpSize pattern
  pure ({ gpu with globalMemory := memory }, grid)

/--
The copy benchmark up to its verdict, which the source turns into an exception
or a report.  `none` means that the fuel ran out.
-/
def runMemcpyBenchmark
    (config : SystemConfig)
    (rng : Nat → Nat → Nat → Nat)
    (numThreads : Nat)
    (pattern : String)
    (fuel : Nat) :
    Option (Except SimError Bool) :=
  match memcpySetup config rng numThreads pattern with
  | .error error => some (.error error)
  | .ok (gpu, grid) =>
      match
        gpu.launchAndRun grid config ⟨10, 0⟩
          (generateMemcpyKernel 10 (by decide)) fuel with
      | none => none
      | some (.error error) => some (.error error)
      | some (.ok after) =>
          some (memcpyCheck after.globalMemory pattern numThreads 10)

end Benchmarks

/-- Stores inside memory all succeed. -/
theorem GlobalMemory.storeAll_inside
    {memory : GlobalMemory}
    {values : List (Nat × Word)}
    (inside : ∀ entry ∈ values, entry.1 < memory.size) :
    memory.storeAll values =
      .ok
        { memory with
          data :=
            values.foldl
              (fun data entry => Function.update data entry.1 entry.2)
              memory.data } := by
  induction values generalizing memory with
  | nil => rfl
  | cons entry rest inductionHypothesis =>
      obtain ⟨here, later⟩ := List.forall_mem_cons.mp inside
      rw [GlobalMemory.storeAll, List.foldlM_cons, GlobalMemory.store,
        if_pos here]
      exact
        @inductionHypothesis
          { memory with
            data := Function.update memory.data entry.1 entry.2 }
          later

/-- After the stores a cell holds one of the values stored to it. -/
theorem foldl_update
    (values : List (Nat × Word))
    (data : Nat → Word)
    (address : Nat) :
    (address,
        values.foldl
          (fun data entry => Function.update data entry.1 entry.2) data
          address) ∈ values ∨
      ∀ entry ∈ values, entry.1 ≠ address := by
  induction values using List.reverseRecOn with
  | nil => exact .inr fun _ member => (List.not_mem_nil member).elim
  | append_singleton values last inductionHypothesis =>
      rw [List.foldl_append, List.foldl_cons, List.foldl_nil]
      by_cases isLast : last.1 = address
      · subst isLast
        rw [Function.update_self]
        exact .inl (List.mem_append_right _ (List.mem_singleton_self _))
      · rw [Function.update_of_ne (Ne.symm isLast)]
        rcases inductionHypothesis with found | nowhere
        · exact .inl (List.mem_append_left _ found)
        · refine .inr fun entry member => ?_
          rcases List.mem_append.mp member with earlier | isHere
          · exact nowhere entry earlier
          · rwa [List.mem_singleton.mp isHere]

namespace Memcpy

open Benchmarks

section Check

variable {pattern : String}
variable {numThreads iterations : Nat}
variable {memory : GlobalMemory}
variable {loop other : Nat × Nat}

/-- The loops visit every thread in every iteration. -/
theorem mem_memcpyLoops :
    loop ∈ memcpyLoops numThreads iterations ↔
      loop.1 < numThreads ∧ loop.2 < iterations := by
  obtain ⟨i, iter⟩ := loop
  simp [memcpyLoops]

/-- The check compares every copy. -/
theorem memcpyCheck_inside
    (inside :
      ∀ loop ∈ memcpyLoops numThreads iterations,
        memcpyCopy pattern numThreads loop < memory.size) :
    memcpyCheck memory pattern numThreads iterations =
      .ok
        (decide
          (∀ loop ∈ memcpyLoops numThreads iterations,
            memory.data (memcpyCopy pattern numThreads loop) =
              BitVec.ofNat 32 (memcpyValue loop))) := by
  have folds (loops : List (Nat × Nat)) :
      ∀ correct,
        (∀ loop ∈ loops, memcpyCopy pattern numThreads loop < memory.size) →
        loops.foldlM
            (fun correct loop => do
              let value ← memory.load (memcpyCopy pattern numThreads loop)
              pure (correct && value == BitVec.ofNat 32 (memcpyValue loop)))
            correct =
          (.ok
            (correct &&
              decide
                (∀ loop ∈ loops,
                  memory.data (memcpyCopy pattern numThreads loop) =
                    BitVec.ofNat 32 (memcpyValue loop))) :
            Except SimError Bool) := by
    induction loops with
    | nil =>
        intro correct _
        simp [pure, Except.pure]
    | cons loop rest inductionHypothesis =>
        intro correct inside
        obtain ⟨here, later⟩ := List.forall_mem_cons.mp inside
        rw [List.foldlM_cons, GlobalMemory.load, if_pos here]
        refine (inductionHypothesis _ later).trans ?_
        rw [Bool.and_assoc, Except.ok.injEq, Bool.eq_iff_iff]
        simp
  rw [memcpyCheck, folds _ true inside, Bool.true_and]

/-- Whether the host wrote no cell twice with different values. -/
def Consistent (pattern : String) (numThreads iterations : Nat) : Prop :=
  ∀ loop ∈ memcpyLoops numThreads iterations,
    ∀ other ∈ memcpyLoops numThreads iterations,
      memcpyCell pattern numThreads loop =
          memcpyCell pattern numThreads other →
        memcpyValue loop = memcpyValue other

/-- The host's cells are those of the threads. -/
theorem memcpyCell_eq
    (fits : iterations * memcpyStride pattern numThreads ≤ 1000000)
    (member : loop ∈ memcpyLoops numThreads iterations) :
    memcpyCell pattern numThreads loop =
        cellOf pattern numThreads loop.1 loop.2 ∧
      cellOf pattern numThreads loop.1 loop.2 < 1000000 ∧
      memcpyCopy pattern numThreads loop =
        1000000 + cellOf pattern numThreads loop.1 loop.2 := by
  obtain ⟨isThread, isIteration⟩ := mem_memcpyLoops.mp member
  have inside := @cellOf_lt pattern _ _ _ fits isThread _ isIteration
  have isCell :
      memcpyCell pattern numThreads loop =
        cellOf pattern numThreads loop.1 loop.2 :=
    Nat.mod_eq_of_lt (inside.trans (by decide))
  refine ⟨isCell, inside, ?_⟩
  rw [memcpyCopy, isCell, Nat.mod_eq_of_lt (by omega)]

/-- A value of the host is a small positive number. -/
theorem memcpyValue_inj
    (isSame :
      BitVec.ofNat 32 (memcpyValue loop) =
        BitVec.ofNat 32 (memcpyValue other)) :
    memcpyValue loop = memcpyValue other := by
  have small (loop : Nat × Nat) : memcpyValue loop < 2 ^ 32 := by
    have residue := Nat.mod_lt ((loop.1 + loop.2) % 2 ^ 64)
      (show 0 < 255 by decide)
    unfold memcpyValue
    omega
  have values := congrArg BitVec.toNat isSame
  rwa [BitVec.toNat_ofNat, BitVec.toNat_ofNat, Nat.mod_eq_of_lt (small _),
    Nat.mod_eq_of_lt (small _)] at values

/-- After the initialization a source holds a value written for its cell. -/
theorem memcpyInit_source
    {data : Nat → Word}
    (fits : iterations * memcpyStride pattern numThreads ≤ 1000000)
    (member : loop ∈ memcpyLoops numThreads iterations) :
    ∃ other ∈ memcpyLoops numThreads iterations,
      memcpyCell pattern numThreads other =
          memcpyCell pattern numThreads loop ∧
        (memcpyInit pattern numThreads iterations).foldl
            (fun data entry => Function.update data entry.1 entry.2) data
            (memcpyCell pattern numThreads loop) =
          BitVec.ofNat 32 (memcpyValue other) := by
  obtain ⟨isCell, inside, _⟩ := memcpyCell_eq fits member
  rcases
    foldl_update (memcpyInit pattern numThreads iterations) data
      (memcpyCell pattern numThreads loop) with found | nowhere
  · obtain ⟨other, isOther, isEntry⟩ := List.mem_flatMap.mp found
    obtain ⟨_, _, isCopy⟩ := memcpyCell_eq fits isOther
    rcases List.mem_cons.mp isEntry with isSource | isCleared
    · obtain ⟨sameCell, isValue⟩ := Prod.mk.inj isSource
      exact ⟨other, isOther, sameCell.symm, isValue⟩
    · have atCopy := (Prod.mk.inj (List.mem_singleton.mp isCleared)).1
      omega
  · exact
      (nowhere
        (memcpyCell pattern numThreads loop,
          BitVec.ofNat 32 (memcpyValue loop))
        (List.mem_flatMap.mpr ⟨loop, member, List.mem_cons_self⟩)
        rfl).elim

/-- The check passes if and only if the host's values agree. -/
theorem passes_iff_consistent
    {data : Nat → Word}
    (arrived :
      ∀ loop ∈ memcpyLoops numThreads iterations,
        ∃ other ∈ memcpyLoops numThreads iterations,
          memcpyCell pattern numThreads other =
              memcpyCell pattern numThreads loop ∧
            data (memcpyCopy pattern numThreads loop) =
              BitVec.ofNat 32 (memcpyValue other)) :
    (∀ loop ∈ memcpyLoops numThreads iterations,
        data (memcpyCopy pattern numThreads loop) =
          BitVec.ofNat 32 (memcpyValue loop)) ↔
      Consistent pattern numThreads iterations := by
  constructor
  · intro passes loop member other otherMember sameCell
    have sameCopy :
        memcpyCopy pattern numThreads loop =
          memcpyCopy pattern numThreads other := by
      rw [memcpyCopy, sameCell, memcpyCopy]
    refine memcpyValue_inj ?_
    rw [← passes loop member, sameCopy, passes other otherMember]
  · intro consistent loop member
    obtain ⟨other, otherMember, sameCell, isValue⟩ := arrived loop member
    rw [isValue, consistent other otherMember loop member sameCell]

end Check

section Patterns

variable {pattern : String}
variable {numThreads : Nat}

/-- Cells of different iterations differ, and so do different offsets. -/
theorem cellOf_inj
    {iterations : Nat}
    {loop other : Nat × Nat}
    (moves : 0 < memcpyStride pattern numThreads)
    (member : loop ∈ memcpyLoops numThreads iterations)
    (otherMember : other ∈ memcpyLoops numThreads iterations)
    (sameCell :
      cellOf pattern numThreads loop.1 loop.2 =
        cellOf pattern numThreads other.1 other.2) :
    loop.2 = other.2 ∧
      memcpyOffset pattern numThreads loop.1 =
        memcpyOffset pattern numThreads other.1 := by
  have below (i : Nat) (isThread : i < numThreads) :
      memcpyOffset pattern numThreads i <
        memcpyStride pattern numThreads :=
    (@offset_lt_stride pattern _ _ isThread).resolve_right fun none =>
      moves.ne' none.2
  have first := below _ (mem_memcpyLoops.mp member).1
  have second := below _ (mem_memcpyLoops.mp otherMember).1
  unfold cellOf at sameCell
  have sameIteration : loop.2 = other.2 := by
    have divided := congrArg (· / memcpyStride pattern numThreads) sameCell
    simpa only [Nat.add_mul_div_right _ _ moves, Nat.div_eq_of_lt first,
      Nat.div_eq_of_lt second, Nat.zero_add] using divided
  refine ⟨sameIteration, ?_⟩
  rw [sameIteration] at sameCell
  exact Nat.add_right_cancel sameCell

/-- No two turns of the host's loops have the same source. -/
def Injective (pattern : String) (numThreads : Nat) : Prop :=
  ∀ loop ∈ memcpyLoops numThreads 10,
    ∀ other ∈ memcpyLoops numThreads 10,
      memcpyCell pattern numThreads loop =
          memcpyCell pattern numThreads other →
        loop = other

instance : Decidable (Injective pattern numThreads) :=
  inferInstanceAs (Decidable (∀ loop ∈ _, _))

/-- The patterns and numbers of threads for which that is so. -/
def Spread (pattern : String) (numThreads : Nat) : Prop :=
  numThreads = 0 ∨
    pattern = "contiguous" ∨
    pattern = "strided" ∨
    pattern = "random" ∧ ¬ 101 ∣ numThreads

/-- A factor that is prime to the number of threads permutes them. -/
theorem random_inj
    {i j : Nat}
    (few : numThreads ≤ 25000)
    (coprime : ¬ 101 ∣ numThreads)
    (isThread : i < numThreads)
    (isOther : j < numThreads)
    (same :
      i * 101 % 2 ^ 64 % numThreads = j * 101 % 2 ^ 64 % numThreads) :
    i = j := by
  rw [Nat.mod_eq_of_lt (show i * 101 < 2 ^ 64 by omega),
    Nat.mod_eq_of_lt (show j * 101 < 2 ^ 64 by omega)] at same
  have isPrime : Nat.Prime 101 := by norm_num
  have unit : Nat.gcd numThreads 101 = 1 :=
    (Nat.coprime_comm.mp (isPrime.coprime_iff_not_dvd.mpr coprime))
  have congruent : i ≡ j [MOD numThreads] :=
    Nat.ModEq.cancel_right_of_coprime unit same
  rwa [Nat.ModEq, Nat.mod_eq_of_lt isThread, Nat.mod_eq_of_lt isOther]
    at congruent

/-- Such a pattern moves on, and its threads have different offsets. -/
theorem Spread.offsets
    (isSpread : Spread pattern numThreads)
    (fits : 10 * memcpyStride pattern numThreads ≤ 1000000)
    {i j : Nat}
    (isThread : i < numThreads)
    (isOther : j < numThreads) :
    0 < memcpyStride pattern numThreads ∧
      (memcpyOffset pattern numThreads i =
          memcpyOffset pattern numThreads j →
        i = j) := by
  rcases isSpread with rfl | rfl | rfl | ⟨rfl, coprime⟩
  · exact (Nat.not_lt_zero _ isThread).elim
  · simp only [memcpyStride, memcpyOffset, if_true]
    omega
  · simp only [memcpyStride, memcpyOffset, String.reduceEq, if_true, if_false]
    omega
  · simp only [memcpyStride, memcpyOffset, String.reduceEq, if_true, if_false]
      at fits ⊢
    refine ⟨by omega, fun same => ?_⟩
    exact
      random_inj (by omega) coprime isThread isOther
        (Nat.eq_of_mul_eq_mul_right (by decide) same)

/-- Under such a pattern every turn has a source of its own. -/
theorem Spread.injective
    (isSpread : Spread pattern numThreads)
    (fits : 10 * memcpyStride pattern numThreads ≤ 1000000) :
    Injective pattern numThreads := by
  intro loop member other otherMember sameCell
  obtain ⟨isCell, _, _⟩ := memcpyCell_eq fits member
  obtain ⟨isOtherCell, _, _⟩ := memcpyCell_eq fits otherMember
  obtain ⟨moves, apart⟩ :=
    isSpread.offsets fits (mem_memcpyLoops.mp member).1
      (mem_memcpyLoops.mp otherMember).1
  obtain ⟨sameIteration, sameOffset⟩ :=
    cellOf_inj moves member otherMember
      (by rw [← isCell, ← isOtherCell, sameCell])
  exact Prod.ext (apart sameOffset) sameIteration

/-- Sources of their own hold the values that were written for them. -/
theorem Injective.consistent
    (isInjective : Injective pattern numThreads) :
    Consistent pattern numThreads 10 := by
  intro loop member other otherMember sameCell
  rw [isInjective loop member other otherMember sameCell]

/-- Under any other pattern some source is written with two values. -/
theorem Consistent.spread
    (consistent : Consistent pattern numThreads 10)
    (fits : 10 * memcpyStride pattern numThreads ≤ 1000000) :
    Spread pattern numThreads := by
  by_contra shared
  simp only [Spread, not_or, not_and, not_not] at shared
  obtain ⟨nonempty, notContiguous, notStrided, isShared⟩ := shared
  have positive := Nat.pos_of_ne_zero nonempty
  by_cases isRandom : pattern = "random"
  · subst isRandom
    obtain ⟨part, rfl⟩ := isShared rfl
    simp only [memcpyStride, String.reduceEq, if_true, if_false] at fits
    have isSame :=
      consistent (0, 0) (mem_memcpyLoops.mpr ⟨positive, by decide⟩)
        (part, 0)
        (mem_memcpyLoops.mpr ⟨by omega, show 0 < 10 by decide⟩)
        (by
          simp only [memcpyCell, memcpyOffset, String.reduceEq, if_true,
            if_false]
          rw [Nat.mod_eq_of_lt (show part * 101 < 2 ^ 64 by omega),
            Nat.mul_comm part, Nat.mod_self]
          simp)
    have small : part < 2 ^ 64 := by omega
    simp only [memcpyValue, Nat.add_zero, Nat.zero_mod,
      Nat.mod_eq_of_lt small] at isSame
    omega
  · have isSame :=
      consistent (0, 0) (mem_memcpyLoops.mpr ⟨positive, by decide⟩)
        (0, 1) (mem_memcpyLoops.mpr ⟨positive, by decide⟩)
        (by
          simp only [memcpyCell, memcpyOffset, memcpyStride,
            if_neg notContiguous, if_neg notStrided, if_neg isRandom])
    revert isSame
    decide

/-- The host's values agree if and only if its cells differ. -/
theorem consistent_iff
    (fits : 10 * memcpyStride pattern numThreads ≤ 1000000) :
    Consistent pattern numThreads 10 ↔ Injective pattern numThreads :=
  ⟨fun consistent => (consistent.spread fits).injective fits,
    Injective.consistent⟩

/-- The patterns that give every turn a source of its own. -/
theorem injective_iff
    (fits : 10 * memcpyStride pattern numThreads ≤ 1000000) :
    Injective pattern numThreads ↔ Spread pattern numThreads :=
  ⟨fun isInjective => isInjective.consistent.spread fits,
    fun isSpread => isSpread.injective fits⟩

end Patterns

section Verdict

variable {pattern : String}
variable {numThreads blockSize warpSize fuel : Nat}
variable {config : SystemConfig}
variable {rng : Nat → Nat → Nat → Nat}
variable {gpu : GPU Scheduler}
variable {grid : Grid}

/-- A GPU of the benchmark has ten megabytes of global memory. -/
theorem memcpyConfig_large (config : SystemConfig) :
    10 * 1024 * 1024 ≤ (memcpyConfig config).globalMemorySize := by
  unfold memcpyConfig
  split
  · exact Nat.le_refl _
  · rename_i large
    exact Nat.le_of_not_lt large

/-- Global memory has the configured size. -/
theorem new_size
    (built :
      GPU.new config SchedulerFactory.createScheduler rng = .ok gpu) :
    gpu.globalMemory.size = config.globalMemorySize := by
  obtain ⟨l2Cache, _, rest⟩ := except_bind_ok.mp built
  obtain ⟨sms, _, returned⟩ := except_bind_ok.mp rest
  cases returned
  rfl

/-- The host's stores before the launch all succeed. -/
theorem memcpySetup_ok
    (fits : 10 * memcpyStride pattern numThreads ≤ 1000000)
    (large : 2000000 ≤ gpu.globalMemory.size)
    (built :
      GPU.new (memcpyConfig config) SchedulerFactory.createScheduler rng =
        .ok gpu)
    (gridBuilt :
      buildMemcpyGrid numThreads config.blockSize config.warpSize pattern =
        .ok grid) :
    memcpySetup config rng numThreads pattern =
      .ok
        ({ gpu with
            globalMemory :=
              { gpu.globalMemory with
                data :=
                  (memcpyInit pattern numThreads 10).foldl
                    (fun data entry => Function.update data entry.1 entry.2)
                    gpu.globalMemory.data } },
          grid) := by
  have stored :
      gpu.globalMemory.storeAll (memcpyInit pattern numThreads 10) =
        .ok
          { gpu.globalMemory with
            data :=
              (memcpyInit pattern numThreads 10).foldl
                (fun data entry => Function.update data entry.1 entry.2)
                gpu.globalMemory.data } := by
    refine GlobalMemory.storeAll_inside fun entry member => ?_
    obtain ⟨loop, isLoop, isEntry⟩ := List.mem_flatMap.mp member
    obtain ⟨isCell, inside, isCopy⟩ := memcpyCell_eq fits isLoop
    simp only [List.mem_cons, List.not_mem_nil, or_false] at isEntry
    rcases isEntry with rfl | rfl
    · dsimp only
      omega
    · dsimp only
      omega
  rw [memcpySetup, built]
  dsimp only [bind, Except.bind]
  rw [stored, gridBuilt]
  rfl

/--
The copy benchmark always runs to a verdict, and the verdict is a pass if and
only if no two turns of the host's loops have the same source.  So the random
pattern fails for all positive multiples of 101 threads, and a pattern without a
name fails for any thread.
-/
theorem memcpyBenchmark_passes_iff
    (someThreads : 0 < config.blockSize)
    (few : config.blockSize ≤ 2 ^ 31)
    (positive : 0 < config.warpSize)
    (narrow : config.warpSize ≤ 32)
    (someSms : 0 < config.numSms)
    (someActive : 1 ≤ config.activeSetSize)
    (noWrap : numThreads + config.blockSize ≤ 2 ^ 64)
    (fits : 10 * memcpyStride pattern numThreads ≤ 1000000)
    (built :
      GPU.new (memcpyConfig config) SchedulerFactory.createScheduler rng =
        .ok gpu)
    (gridBuilt :
      buildMemcpyGrid numThreads config.blockSize config.warpSize pattern =
        .ok grid)
    (room : ∀ block ∈ grid.blocks, SM.fitsEmpty block config ⟨10, 0⟩ = true)
    (enough :
      grid.iterationBound (generateMemcpyKernel 10 (by decide)) config <
        fuel) :
    runMemcpyBenchmark config rng numThreads pattern fuel =
        some (.ok (decide (Injective pattern numThreads))) ∧
      (Injective pattern numThreads ↔ Spread pattern numThreads) := by
  refine ⟨?_, injective_iff fits⟩
  have sameSms : (memcpyConfig config).numSms = config.numSms ∧
      (memcpyConfig config).activeSetSize = config.activeSetSize := by
    unfold memcpyConfig
    split <;> exact ⟨rfl, rfl⟩
  have nonempty : gpu.sms ≠ [] := by
    have count := (GPU.new_shared built).1
    rw [sameSms.1] at count
    exact List.ne_nil_of_length_pos (count ▸ someSms)
  have large : 2000000 ≤ gpu.globalMemory.size := by
    rw [new_size built]
    exact (memcpyConfig_large config).trans' (by decide)
  let data :=
    (memcpyInit pattern numThreads 10).foldl
      (fun data entry => Function.update data entry.1 entry.2)
      gpu.globalMemory.data
  let ready : GPU Scheduler :=
    { gpu with globalMemory := { gpu.globalMemory with data := data } }
  have setup :
      memcpySetup config rng numThreads pattern = .ok (ready, grid) :=
    memcpySetup_ok fits large built gridBuilt
  -- the run copies what the host has stored
  have scheduled := GPU.new_scheduled (sameSms.2 ▸ someActive) built
  have inUse := (GPU.new_fresh built).cachesInUse
  obtain ⟨after, ran⟩ :=
    @memcpy_returns pattern numThreads config.blockSize config.warpSize 10 grid
      ready config ⟨10, 0⟩ fuel someThreads positive narrow few (by decide)
      fits gridBuilt scheduled ⟨inUse.l1Caches, inUse.l2Cache⟩ large room
      enough
  have copies :=
    (memcpy_correct someThreads positive narrow noWrap (by decide) fits
      gridBuilt (show ready.sms ≠ [] from nonempty) ran).1
  have gridFormed :=
    (GPU.elementGrid_wellFormed someThreads positive narrow gridBuilt
      fun _ _ _ _ isBuilt => writeRegisters_blockId isBuilt).1
  have size : after.globalMemory.size = gpu.globalMemory.size :=
    (GPU.launchAndRun_size gridFormed ran).trans rfl
  -- and the host looks at it
  rw [runMemcpyBenchmark, setup]
  dsimp only
  rw [ran]
  dsimp only
  rw [memcpyCheck_inside fun loop member => by
    obtain ⟨_, inside, isCopy⟩ := memcpyCell_eq fits member
    omega]
  refine congrArg (fun verdict => some (Except.ok verdict)) ?_
  rw [decide_eq_decide, ← consistent_iff fits]
  refine passes_iff_consistent fun loop member => ?_
  obtain ⟨isThread, isIteration⟩ := mem_memcpyLoops.mp member
  obtain ⟨isCell, _, isCopy⟩ := memcpyCell_eq fits member
  rw [isCopy, copies _ isThread _ isIteration, ← isCell]
  exact memcpyInit_source fits member

end Verdict

/-- Two multiprocessors. -/
def pairConfig : SystemConfig where
  numSms := 2
  warpSize := 32
  blockSize := 64
  maxThreadsPerSm := 1024
  maxBlocksPerSm := 8
  maxSharedMemoryPerSm := 1024
  maxRegistersPerSm := 65536

/-- All threads of the random pattern, as many as its factor. -/
def factorGrid : Grid :=
  (buildMemcpyGrid 101 64 32 "random").toOption.getD ⟨[]⟩

/-- As many threads as the factor of the random pattern do not pass. -/
theorem memcpyBenchmark_passes_iff_factor :
    runMemcpyBenchmark pairConfig (fun _ _ _ => 0) 101 "random"
        (factorGrid.iterationBound (generateMemcpyKernel 10 (by decide))
            pairConfig +
          1) =
        some (.ok false) ∧
      ¬ Spread "random" 101 := by
  have built :
      GPU.new (memcpyConfig pairConfig) SchedulerFactory.createScheduler
          (fun _ _ _ => 0) =
        .ok
          ((GPU.new (memcpyConfig pairConfig)
              SchedulerFactory.createScheduler
              (fun _ _ _ => 0)).toOption.getD
            (GPU.single pairConfig)) :=
    except_ok_getD (by decide +kernel)
  have gridBuilt : buildMemcpyGrid 101 64 32 "random" = .ok factorGrid :=
    except_ok_getD (by decide +kernel)
  have room :
      factorGrid.blocks.all
          (fun block => SM.fitsEmpty block pairConfig ⟨10, 0⟩) =
        true := by
    decide +kernel
  have verdict :=
    @memcpyBenchmark_passes_iff "random" 101 _ pairConfig _ _ factorGrid
      (by decide) (by decide) (by decide) (by decide) (by decide) (by decide)
      (by decide) (by decide +kernel) built gridBuilt
      (fun block member => List.all_eq_true.mp room block member)
      (Nat.lt_add_one _)
  -- the first two threads share their sources
  have fails : decide (Injective "random" 101) = false := by
    decide +kernel
  exact
    ⟨verdict.1.trans (congrArg (some ∘ Except.ok) fails),
      fun isSpread => of_decide_eq_false fails (verdict.2.mpr isSpread)⟩

end Memcpy

end SimSm
