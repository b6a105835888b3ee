import SimSm.Occupancy
import SimSm.Residency

namespace SimSm

/-!
# Occupancy and admission

The occupancy calculator predicts in closed form how many equal blocks the
admission test lets in one after the other.
-/

namespace SM

variable {σ : Type}

/-- Admit blocks in order for as long as they fit; return those left over. -/
def fill
    (config : SystemConfig)
    (req : KernelResourceRequirements)
    (sm : SM σ) :
    List ThreadBlock → SM σ × List ThreadBlock
  | [] => (sm, [])
  | block :: rest =>
      if sm.canAdmit block config req then
        fill config req (sm.allocateBlock block req) rest
      else
        (sm, block :: rest)

end SM

namespace OccupancyCalculator

/-- A block of the configured size, split into the predicted warps. -/
structure Sized (config : SystemConfig) (block : ThreadBlock) : Prop where
  numThreads : block.numThreads = config.blockSize
  numWarps : block.warps.length = warpsPerBlock config

/-- A multiprocessor that holds a number of blocks of the configured size. -/
structure Holds
    (config : SystemConfig)
    (req : KernelResourceRequirements)
    (count : Nat)
    (sm : SM σ) : Prop where
  blocks : sm.allocatedBlocks = count
  warps : sm.allocatedWarps = count * warpsPerBlock config
  threads : sm.allocatedThreads = count * config.blockSize
  registers : sm.allocatedRegisters = count * registersPerBlock config req
  sharedMemory : sm.allocatedSharedMemory = count * req.sharedMemoryPerBlock

variable {σ : Type}
variable {config : SystemConfig}
variable {req : KernelResourceRequirements}
variable {count : Nat}
variable {sm : SM σ}

/-- A block of the configured size has at least one warp. -/
theorem warpsPerBlock_pos
    (blockSize : 0 < config.blockSize)
    (warpSize : 0 < config.warpSize) :
    0 < warpsPerBlock config := by
  apply Nat.div_pos _ warpSize
  omega

/-- A vacant multiprocessor holds no block. -/
theorem holds_zero
    (vacant : sm.Vacant) :
    Holds config req 0 sm where
  blocks := vacant.allocatedBlocks
  warps := by rw [vacant.allocatedWarps, Nat.zero_mul]
  threads := by rw [vacant.allocatedThreads, Nat.zero_mul]
  registers := by rw [vacant.allocatedRegisters, Nat.zero_mul]
  sharedMemory := by rw [vacant.allocatedSharedMemory, Nat.zero_mul]

/-- Admitting a block of the configured size counts one more. -/
theorem Holds.allocate
    {block : ThreadBlock}
    (holds : Holds config req count sm)
    (sized : Sized config block) :
    Holds config req (count + 1) (sm.allocateBlock block req) := by
  have admits := SM.allocateBlock_admits sm block req
  refine ⟨?_, ?_, ?_, ?_, ?_⟩
  · rw [admits.allocatedBlocks, holds.blocks]
  · rw [admits.allocatedWarps, holds.warps, Nat.succ_mul]
    simp only [SM.chargeOf, sized.numWarps]
  · rw [admits.allocatedThreads, holds.threads, Nat.succ_mul]
    simp only [SM.chargeOf, sized.numThreads]
  · rw [admits.allocatedRegisters, holds.registers, Nat.succ_mul]
    simp only [SM.chargeOf, sized.numThreads, registersPerBlock]
  · rw [admits.allocatedSharedMemory, holds.sharedMemory, Nat.succ_mul]
    simp only [SM.chargeOf]

/-- The number of blocks is within the predicted one. -/
theorem le_residentBlocks
    {count : Nat} :
    count ≤ residentBlocks config req ↔
      count ≤ config.maxBlocksPerSm ∧
        count ≤ maxBlocksByThreads config ∧
        count ≤ maxBlocksByWarps config ∧
        count ≤ maxBlocksByRegs config req ∧
        count ≤ maxBlocksByShmem config req := by
  simp [residentBlocks]

/-- A guarded quotient bounds a count when the product is within the limit. -/
theorem le_guarded_div
    {count limit need fallback : Nat}
    (within : count ≤ fallback) :
    count ≤ (if 0 < need then limit / need else fallback) ↔
      count * need ≤ limit := by
  split
  · rename_i positive
    exact Nat.le_div_iff_mul_le positive
  · rename_i zero
    have isZero : need = 0 := by omega
    simp [isZero, within]

/-- Counted limits hold exactly up to the predicted number of blocks. -/
theorem withinLimits_iff
    (blockSize : 0 < config.blockSize)
    (warpSize : 0 < config.warpSize)
    (holds : Holds config req count sm) :
    sm.WithinLimits config ↔ count ≤ residentBlocks config req := by
  have warpsPositive := warpsPerBlock_pos blockSize warpSize
  rw [le_residentBlocks, maxBlocksByThreads,
    Nat.le_div_iff_mul_le blockSize, maxBlocksByWarps,
    Nat.le_div_iff_mul_le warpsPositive]
  constructor
  · rintro ⟨blocks, warps, threads, registers, sharedMemory⟩
    rw [holds.blocks] at blocks
    rw [holds.warps] at warps
    rw [holds.threads] at threads
    rw [holds.registers] at registers
    rw [holds.sharedMemory] at sharedMemory
    exact
      ⟨blocks, threads, warps, (le_guarded_div blocks).mpr registers,
        (le_guarded_div blocks).mpr sharedMemory⟩
  · rintro ⟨blocks, threads, warps, registers, sharedMemory⟩
    refine ⟨?_, ?_, ?_, ?_, ?_⟩
    · rwa [holds.blocks]
    · rwa [holds.warps]
    · rwa [holds.threads]
    · rw [holds.registers]
      exact (le_guarded_div blocks).mp registers
    · rw [holds.sharedMemory]
      exact (le_guarded_div blocks).mp sharedMemory

/-- Filling admits blocks up to the predicted number. -/
theorem Holds.fill
    {blocks : List ThreadBlock}
    (blockSize : 0 < config.blockSize)
    (warpSize : 0 < config.warpSize)
    (holds : Holds config req count sm)
    (within : count ≤ residentBlocks config req)
    (sized : ∀ block ∈ blocks, Sized config block) :
    (sm.fill config req blocks).2 =
        blocks.drop (residentBlocks config req - count) ∧
      Holds config req
        (min (count + blocks.length) (residentBlocks config req))
        (sm.fill config req blocks).1 := by
  induction blocks generalizing sm count with
  | nil =>
      have total : min (count + 0) (residentBlocks config req) = count :=
        Nat.min_eq_left within
      rw [SM.fill, List.length_nil, total, List.drop_nil]
      exact ⟨rfl, holds⟩
  | cons block rest inductionHypothesis =>
      have next := holds.allocate (sized block List.mem_cons_self)
      have fits :
          sm.canAdmit block config req = true ↔
            count + 1 ≤ residentBlocks config req :=
        SM.canAdmit_iff.trans (withinLimits_iff blockSize warpSize next)
      rw [SM.fill]
      split
      · rename_i admitted
        obtain ⟨left, final⟩ :=
          inductionHypothesis next (fits.mp admitted)
            (fun other member =>
              sized other (List.mem_cons_of_mem block member))
        have room :
            residentBlocks config req - count =
              residentBlocks config req - (count + 1) + 1 := by
          have := fits.mp admitted
          omega
        rw [room, List.drop_succ_cons]
        rw [Nat.add_right_comm count 1] at final
        exact ⟨left, final⟩
      · rename_i refused
        have atLimit : residentBlocks config req = count := by
          rw [fits] at refused
          omega
        have total :
            min (count + (block :: rest).length)
              (residentBlocks config req) =
              count := by
          rw [atLimit]
          exact Nat.min_eq_right (Nat.le_add_right _ _)
        rw [total, atLimit, Nat.sub_self, List.drop_zero]
        exact ⟨rfl, holds⟩

/-- The configured limit that a factor names. -/
def limitOf (factor : LimitingFactor) (config : SystemConfig) : Nat :=
  match factor with
  | .registers => config.maxRegistersPerSm
  | .sharedMemory => config.maxSharedMemoryPerSm
  | .warps => config.maxWarpsPerSm
  | .threads => config.maxThreadsPerSm
  | .blocks => config.maxBlocksPerSm

/-- The number of blocks that the limit named by a factor allows. -/
def boundOf
    (factor : LimitingFactor)
    (config : SystemConfig)
    (req : KernelResourceRequirements) :
    Nat :=
  match factor with
  | .registers => maxBlocksByRegs config req
  | .sharedMemory => maxBlocksByShmem config req
  | .warps => maxBlocksByWarps config
  | .threads => maxBlocksByThreads config
  | .blocks => config.maxBlocksPerSm

/-- A block needs some of the resource that a factor names. -/
def Needs
    (factor : LimitingFactor)
    (config : SystemConfig)
    (req : KernelResourceRequirements) :
    Prop :=
  match factor with
  | .registers => 0 < registersPerBlock config req
  | .sharedMemory => 0 < req.sharedMemoryPerBlock
  | .warps | .threads | .blocks => True

/-- Two configurations that agree on the block shape and on one limit. -/
structure SameLimit
    (factor : LimitingFactor)
    (config raised : SystemConfig) : Prop where
  blockSize : raised.blockSize = config.blockSize
  warpSize : raised.warpSize = config.warpSize
  limit : limitOf factor raised = limitOf factor config

/-- No prediction exceeds the bound of any factor. -/
theorem residentBlocks_le_boundOf
    (factor : LimitingFactor)
    (config : SystemConfig)
    (req : KernelResourceRequirements) :
    residentBlocks config req ≤ boundOf factor config req := by
  obtain ⟨byBlocks, byThreads, byWarps, byRegs, byShmem⟩ :=
    le_residentBlocks.mp (Nat.le_refl (residentBlocks config req))
  cases factor with
  | registers => exact byRegs
  | sharedMemory => exact byShmem
  | warps => exact byWarps
  | threads => exact byThreads
  | blocks => exact byBlocks

/-- The bound of a needed factor depends on its own limit only. -/
theorem SameLimit.boundOf_eq
    {factor : LimitingFactor}
    {raised : SystemConfig}
    (same : SameLimit factor config raised)
    (needs : Needs factor config req) :
    boundOf factor raised req = boundOf factor config req := by
  obtain ⟨blockSize, warpSize, limit⟩ := same
  cases factor with
  | registers =>
      have sameNeed :
          registersPerBlock raised req = registersPerBlock config req := by
        simp only [registersPerBlock, blockSize]
      have positive : 0 < registersPerBlock config req := needs
      simp only [boundOf, maxBlocksByRegs, sameNeed]
      rw [if_pos positive, if_pos positive]
      exact congrArg (· / registersPerBlock config req) limit
  | sharedMemory =>
      have positive : 0 < req.sharedMemoryPerBlock := needs
      simp only [boundOf, maxBlocksByShmem]
      rw [if_pos positive, if_pos positive]
      exact congrArg (· / req.sharedMemoryPerBlock) limit
  | warps =>
      have sameWarps : warpsPerBlock raised = warpsPerBlock config := by
        simp only [warpsPerBlock, blockSize, warpSize]
      simp only [boundOf, maxBlocksByWarps, sameWarps]
      exact congrArg (· / warpsPerBlock config) limit
  | threads =>
      simp only [boundOf, maxBlocksByThreads, blockSize]
      exact congrArg (· / config.blockSize) limit
  | blocks =>
      exact limit

/-- The predicted number is one of its five bounds. -/
theorem residentBlocks_attained
    (config : SystemConfig)
    (req : KernelResourceRequirements) :
    residentBlocks config req = config.maxBlocksPerSm ∨
      residentBlocks config req = maxBlocksByThreads config ∨
      residentBlocks config req = maxBlocksByWarps config ∨
      residentBlocks config req = maxBlocksByRegs config req ∨
      residentBlocks config req = maxBlocksByShmem config req := by
  unfold residentBlocks
  omega

/-- An attained bound is that of a needed resource or the block limit. -/
theorem attained_or_blocks
    {limit need fallback attained : Nat}
    (isAttained :
      attained = if 0 < need then limit / need else fallback)
    (notNamed :
      ¬ (attained = (if 0 < need then limit / need else fallback) ∧
          0 < need)) :
    attained = fallback := by
  split at isAttained
  · rename_i positive
    exact (notNamed ⟨by rwa [if_pos positive], positive⟩).elim
  · exact isAttained

/-- The named factor is needed, and its bound is the prediction. -/
theorem limitingFactor_binds
    (config : SystemConfig)
    (req : KernelResourceRequirements) :
    Needs (limitingFactor config req) config req ∧
      residentBlocks config req =
        boundOf (limitingFactor config req) config req := by
  by_cases byRegs :
    residentBlocks config req = maxBlocksByRegs config req ∧
      0 < registersPerBlock config req
  · rw [limitingFactor, if_pos byRegs]
    exact ⟨byRegs.2, byRegs.1⟩
  by_cases byShmem :
    residentBlocks config req = maxBlocksByShmem config req ∧
      0 < req.sharedMemoryPerBlock
  · rw [limitingFactor, if_neg byRegs, if_pos byShmem]
    exact ⟨byShmem.2, byShmem.1⟩
  by_cases byWarps :
    residentBlocks config req = maxBlocksByWarps config
  · rw [limitingFactor, if_neg byRegs, if_neg byShmem, if_pos byWarps]
    exact ⟨trivial, byWarps⟩
  by_cases byThreads :
    residentBlocks config req = maxBlocksByThreads config
  · rw [limitingFactor, if_neg byRegs, if_neg byShmem, if_neg byWarps,
      if_pos byThreads]
    exact ⟨trivial, byThreads⟩
  · rw [limitingFactor, if_neg byRegs, if_neg byShmem, if_neg byWarps,
      if_neg byThreads]
    refine ⟨trivial, ?_⟩
    rcases residentBlocks_attained config req with
      byBlocks | isThreads | isWarps | isRegs | isShmem
    · exact byBlocks
    · exact (byThreads isThreads).elim
    · exact (byWarps isWarps).elim
    · exact attained_or_blocks isRegs byRegs
    · exact attained_or_blocks isShmem byShmem

/-- Raising limits other than the named one never raises the prediction. -/
theorem residentBlocks_le_of_sameLimit
    {raised : SystemConfig}
    (same : SameLimit (limitingFactor config req) config raised) :
    residentBlocks raised req ≤ residentBlocks config req := by
  obtain ⟨needs, binds⟩ := limitingFactor_binds config req
  rw [binds, ← same.boundOf_eq needs]
  exact residentBlocks_le_boundOf _ raised req

/-- With a positive block and warp size there is a prediction. -/
theorem compute_ok
    (req : KernelResourceRequirements)
    (blockSize : 0 < config.blockSize)
    (warpSize : 0 < config.warpSize) :
    ∃ result,
      compute config req = .ok result ∧
        result.residentBlocks = residentBlocks config req ∧
        result.residentWarps =
          residentBlocks config req * warpsPerBlock config ∧
        result.limitingFactor = limitingFactor config req := by
  have valid : ¬ (config.blockSize = 0 ∨ config.warpSize = 0) := by
    omega
  exact ⟨_, by rw [compute, if_neg valid], rfl, rfl, rfl⟩

/--
Filling a vacant multiprocessor from enough blocks of the configured size stops
after exactly the predicted blocks and warps, and raising limits other than the
named one never raises the prediction.
-/
theorem compute_agrees_with_admission
    (config : SystemConfig)
    (req : KernelResourceRequirements)
    (blockSize : 0 < config.blockSize)
    (warpSize : 0 < config.warpSize) :
    ∃ result,
      compute config req = .ok result ∧
        (∀ (sm : SM σ) (blocks : List ThreadBlock),
          sm.Vacant →
          (∀ block ∈ blocks, Sized config block) →
          result.residentBlocks < blocks.length →
          (sm.fill config req blocks).2 =
              blocks.drop result.residentBlocks ∧
            (sm.fill config req blocks).1.allocatedBlocks =
              result.residentBlocks ∧
            (sm.fill config req blocks).1.allocatedWarps =
              result.residentWarps) ∧
        ∀ raised,
          SameLimit result.limitingFactor config raised →
          ∃ better,
            compute raised req = .ok better ∧
              better.residentBlocks ≤ result.residentBlocks := by
  obtain ⟨result, computed, blocksShape, warpsShape, factor⟩ :=
    compute_ok req blockSize warpSize
  refine ⟨result, computed, ?_, ?_⟩
  · intro sm blocks vacant sized enough
    obtain ⟨left, final⟩ :=
      (holds_zero vacant).fill blockSize warpSize (Nat.zero_le _) sized
    have count :
        min (0 + blocks.length) (residentBlocks config req) =
          residentBlocks config req := by
      omega
    rw [count] at final
    rw [blocksShape, warpsShape]
    exact ⟨left, final.blocks, final.warps⟩
  · intro raised same
    obtain ⟨better, computedRaised, betterShape, _, _⟩ :=
      @compute_ok raised req
        (same.blockSize ▸ blockSize) (same.warpSize ▸ warpSize)
    refine ⟨better, computedRaised, ?_⟩
    rw [betterShape, blocksShape]
    rw [factor] at same
    exact residentBlocks_le_of_sameLimit same

/-- A block of forty threads in two warps. -/
def fortyThreads : ThreadBlock where
  blockId := 0
  warps :=
    [ { warpId := 0, threads := List.replicate 32 (Thread.new 0 0 0 0 0) },
      { warpId := 1, threads := List.replicate 8 (Thread.new 32 0 32 1 0) } ]

/-- Registers admit three of the two-warp blocks, and bind. -/
theorem compute_agrees_with_admission_registers :
    let config : SystemConfig :=
      { numSms := 1, warpSize := 32, blockSize := 40
        maxThreadsPerSm := 2048, maxBlocksPerSm := 16
        maxSharedMemoryPerSm := 65536, maxRegistersPerSm := 1000 }
    ∃ result,
      compute config ⟨8, 0⟩ = .ok result ∧
        result.residentBlocks = 3 ∧
        ((SM.vacantWith Scheduler.greedy).fill config ⟨8, 0⟩
            (List.replicate 4 fortyThreads)).1.allocatedWarps =
          result.residentWarps ∧
        SameLimit result.limitingFactor config
          { config with maxThreadsPerSm := 4096 } := by
  intro config
  obtain ⟨result, computed, admission, _⟩ :=
    compute_agrees_with_admission config ⟨8, 0⟩ (by decide) (by decide)
  obtain ⟨_, computed', blocks, _, factor⟩ :=
    @compute_ok config ⟨8, 0⟩ (by decide) (by decide)
  rw [computed, Except.ok.injEq] at computed'
  subst computed'
  have isThree : result.residentBlocks = 3 := by
    rw [blocks]
    decide
  obtain ⟨_, _, warps⟩ :=
    admission (SM.vacantWith Scheduler.greedy)
      (List.replicate 4 fortyThreads) (SM.vacantWith_vacant _)
      (fun block member => by
        rw [List.eq_of_mem_replicate member]
        exact ⟨by decide, by decide⟩)
      (by rw [isThree]; decide)
  have named : limitingFactor config ⟨8, 0⟩ = .registers := by decide
  refine ⟨result, computed, isThree, warps, rfl, rfl, ?_⟩
  rw [factor, named]
  rfl

end OccupancyCalculator

end SimSm
