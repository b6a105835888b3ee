import SimSm.Traffic

namespace SimSm

/-!
# How long one instruction takes

Latencies, transactions and conflicts of an executed instruction are bounded by
the latencies of the configuration and by the number of active lanes, whatever
the caches and memories hold.
-/

open Outcome

/-- The latency of an access that misses everywhere and evicts a dirty line. -/
def MemoryAccessConfig.missLatency (config : MemoryAccessConfig) : Nat :=
  config.l1Latency + config.l2Latency + config.globalMemoryLatency +
    config.writebackLatency

/-- The largest latency of one access of a lane; no instruction takes less. -/
def MemoryAccessConfig.slowestAccess (config : MemoryAccessConfig) : Nat :=
  max 1 (max config.sharedMemoryLatency config.missLatency)

/-- A maximum taken along a list is below what bounds its entries. -/
theorem foldl_max_le
    {entries : List Nat}
    {start bound : Nat}
    (startBelow : start ≤ bound)
    (below : ∀ entry ∈ entries, entry ≤ bound) :
    entries.foldl max start ≤ bound := by
  induction entries generalizing start with
  | nil => exact startBelow
  | cons entry rest inductionHypothesis =>
      rw [List.forall_mem_cons] at below
      exact inductionHypothesis (max_le startBelow below.1) below.2

namespace MemorySystem

/-! ## Single accesses -/

/-- A latency function that is bounded by the latency of a miss. -/
def Bounded (latencyOf : Nat → MemoryM (Nat × Nat)) : Prop :=
  ∀ (address latency dirty : Nat) (before after : MemorySystem),
    latencyOf address before = .ok (latency, dirty) after →
    latency ≤ before.config.missLatency ∧ after.config = before.config

/-- The cost of a miss is at most that of the worst one. -/
theorem miss_le
    (config : MemoryAccessConfig)
    (l2Hit dirty : Bool) :
    ((if l2Hit = true then
          config.l1Latency + config.l2Latency
        else
          config.l1Latency +
            (config.l2Latency + config.globalMemoryLatency)) +
        if dirty = true then config.writebackLatency else 0) ≤
      config.missLatency := by
  unfold MemoryAccessConfig.missLatency
  split <;> split <;> omega

theorem readLatency_bounded : Bounded readLatency := by
  intro address latency dirty before after ran
  obtain ⟨_, served, _⟩ := readLatency_charges _ _ _ _ _ ran
  refine ⟨?_, served.config⟩
  unfold readLatency at ran
  obtain ⟨_, _, got, rest⟩ := state_bind_ok.mp ran
  obtain ⟨rfl, rfl⟩ := state_get_ok.mp got
  obtain ⟨l1Result, _, accessed, rest⟩ := state_bind_ok.mp rest
  split at rest
  · obtain ⟨shape, _⟩ := state_pure_ok.mp rest
    obtain ⟨rfl, _⟩ := Prod.mk.inj shape
    unfold MemoryAccessConfig.missLatency
    omega
  · obtain ⟨l2Result, _, _, rest⟩ := state_bind_ok.mp rest
    obtain ⟨rfl, _, _⟩ := writeback_ok rest
    exact miss_le _ _ _

theorem writeLatency_bounded : Bounded writeLatency := by
  intro address latency dirty before after ran
  obtain ⟨_, served, _⟩ := writeLatency_charges _ _ _ _ _ ran
  refine ⟨?_, served.config⟩
  unfold writeLatency at ran
  obtain ⟨_, _, got, rest⟩ := state_bind_ok.mp ran
  obtain ⟨rfl, rfl⟩ := state_get_ok.mp got
  obtain ⟨l1Result, _, accessed, rest⟩ := state_bind_ok.mp rest
  split at rest
  · obtain ⟨_, _, returned, rest⟩ := state_bind_ok.mp rest
    obtain ⟨rfl, rfl⟩ := state_pure_ok.mp returned
    obtain ⟨rfl, _, _⟩ := writeback_ok rest
    unfold MemoryAccessConfig.missLatency
    split <;> omega
  · obtain ⟨l2Result, _, _, rest⟩ := state_bind_ok.mp rest
    have cost := miss_le before.config l2Result.hit l1Result.dirtyEviction
    split at rest
    · rename_i isHit
      obtain ⟨_, _, returned, rest⟩ := state_bind_ok.mp rest
      obtain ⟨rfl, rfl⟩ := state_pure_ok.mp returned
      obtain ⟨rfl, _, _⟩ := writeback_ok rest
      rwa [if_pos isHit] at cost
    · rename_i isMiss
      obtain ⟨_, _, returned, rest⟩ := state_bind_ok.mp rest
      obtain ⟨rfl, rfl⟩ := state_pure_ok.mp returned
      obtain ⟨rfl, _, _⟩ := writeback_ok rest
      rwa [if_neg isMiss] at cost

/-- Charging lines takes no longer than the worst line. -/
theorem chargeTransactions_bounded
    {latencyOf : Nat → MemoryM (Nat × Nat)}
    (bounded : Bounded latencyOf)
    {lines : List Nat}
    {maxLatency dirty latency total : Nat}
    {before after : MemorySystem}
    (ran :
      chargeTransactions latencyOf lines maxLatency dirty before =
        .ok (latency, total) after) :
    latency ≤ max maxLatency before.config.missLatency := by
  induction lines generalizing maxLatency dirty before with
  | nil =>
      obtain ⟨shape, _⟩ := state_pure_ok.mp ran
      obtain ⟨rfl, _⟩ := Prod.mk.inj shape
      exact le_max_left _ _
  | cons line rest inductionHypothesis =>
      obtain ⟨⟨lineLatency, lineDirty⟩, middle, charged, later⟩ :=
        state_bind_ok.mp ran
      obtain ⟨lineBound, sameConfig⟩ := bounded _ _ _ _ _ charged
      have others := inductionHypothesis later
      rw [sameConfig] at others
      omega

/-- An access to shared memory that takes the configured latency. -/
def TakesShared (access : Nat → β → MemoryM (α × Nat)) : Prop :=
  ∀ (address : Nat) (argument : β) (before after : MemorySystem) (value : α)
    (latency : Nat),
    access address argument before = .ok (value, latency) after →
    latency = before.config.sharedMemoryLatency ∧
      after.config = before.config

/-- Accesses to shared memory together take no longer than one of them. -/
theorem sharedAccesses_bounded
    {access : Nat → β → MemoryM (α × Nat)}
    (takes : TakesShared access)
    {accesses : List (Nat × β)}
    {maxLatency latency : Nat}
    {values : List α}
    {before after : MemorySystem}
    (ran :
      sharedAccesses access accesses maxLatency before =
        .ok (values, latency) after) :
    latency ≤ max maxLatency before.config.sharedMemoryLatency := by
  induction accesses generalizing maxLatency before values with
  | nil =>
      obtain ⟨shape, _⟩ := state_pure_ok.mp ran
      obtain ⟨_, rfl⟩ := Prod.mk.inj shape
      exact le_max_left _ _
  | cons first rest inductionHypothesis =>
      obtain ⟨⟨value, one⟩, middle, performed, later⟩ :=
        state_bind_ok.mp ran
      obtain ⟨⟨others, longest⟩, final, performs, returned⟩ :=
        state_bind_ok.mp later
      obtain ⟨shape, rfl⟩ := state_pure_ok.mp returned
      obtain ⟨_, rfl⟩ := Prod.mk.inj shape
      obtain ⟨rfl, sameConfig⟩ := takes _ _ _ _ _ _ performed
      have bound := inductionHypothesis performs
      rw [sameConfig] at bound
      omega

theorem sharedLoad_takes :
    TakesShared fun address (_ : Unit) => sharedLoad address := by
  intro address _ before after value latency ran
  obtain ⟨config, _⟩ := sharedLoad_keeps _ _ _ _ ran
  obtain ⟨_, _, got, rest⟩ := state_bind_ok.mp ran
  obtain ⟨rfl, rfl⟩ := state_get_ok.mp got
  obtain ⟨_, _, _, returned⟩ := state_bind_ok.mp rest
  obtain ⟨shape, _⟩ := state_pure_ok.mp returned
  exact ⟨(Prod.mk.inj shape).2.symm, config⟩

/-- A store to shared memory takes the configured latency. -/
theorem sharedStore_latency
    {address latency : Nat}
    {value : Word}
    {before after : MemorySystem}
    (ran : sharedStore address value before = .ok latency after) :
    latency = before.config.sharedMemoryLatency ∧
      after.config = before.config := by
  obtain ⟨config, _⟩ := sharedStore_keeps _ _ _ _ _ ran
  obtain ⟨_, _, got, rest⟩ := state_bind_ok.mp ran
  obtain ⟨rfl, rfl⟩ := state_get_ok.mp got
  obtain ⟨_, _, _, rest⟩ := state_bind_ok.mp rest
  obtain ⟨_, _, _, returned⟩ := state_bind_ok.mp rest
  obtain ⟨same, _⟩ := state_pure_ok.mp returned
  exact ⟨same.symm, config⟩

/-! ## Warp accesses -/

/-- Bank conflicts cost a cycle for each lane but the first, at most. -/
theorem computeBankConflicts_le
    (memory : SharedMemory)
    (addresses : List Nat) :
    memory.computeBankConflicts addresses ≤ addresses.length - 1 := by
  have words (bank : Nat) :
      (memory.bankWords addresses bank).length ≤ addresses.length := by
    unfold SharedMemory.bankWords
    refine (List.dedup_sublist _).length_le.trans ?_
    refine (List.length_filter_le _ _).trans ?_
    rw [List.length_map]
  have largest :
      (addresses.map fun address =>
          (memory.bankWords addresses
            (address / 4 % memory.numBanks)).length).foldl max 0 ≤
        addresses.length := by
    refine foldl_max_le (Nat.zero_le _) fun entry member => ?_
    obtain ⟨address, _, rfl⟩ := List.mem_map.mp member
    exact words _
  unfold SharedMemory.computeBankConflicts
  split
  · exact Nat.zero_le _
  · dsimp only
    split
    · exact Nat.sub_le_sub_right largest 1
    · exact Nat.zero_le _

/-- A warp access makes at most one transaction for each lane. -/
theorem length_coalesce_le
    (addresses : List Nat)
    (lineSize : Nat) :
    (coalesce addresses lineSize).length ≤ addresses.length := by
  unfold coalesce
  split
  · exact Nat.le_refl _
  · rw [List.length_insertionSort]
    refine (List.dedup_sublist _).length_le.trans ?_
    rw [List.length_map]

/-- What one warp access of some lanes may cost. -/
structure Costs
    (config : MemoryAccessConfig)
    (lanes : Nat)
    (result : WarpMemoryResult) : Prop where
  latency : result.totalLatency ≤ config.slowestAccess + (lanes - 1)
  transactions : result.numTransactions ≤ lanes
  bankConflicts : result.bankConflictStalls ≤ lanes - 1

/-- Every warp access costs no more than it may. -/
theorem warpAccess_costs
    {latencyOf : Nat → MemoryM (Nat × Nat)}
    {onShared : Nat → β → MemoryM (α × Nat)}
    {onGlobal : Nat → β → MemoryM α}
    (bounded : Bounded latencyOf)
    (takes : TakesShared onShared)
    {accesses : List (Nat × β)}
    {before after : MemorySystem}
    {values : List α}
    {result : WarpMemoryResult}
    (ran :
      warpAccess latencyOf onShared onGlobal accesses before =
        .ok (values, result) after) :
    Costs before.config accesses.length result := by
  have slow : 1 ≤ before.config.slowestAccess := le_max_left _ _
  have slowShared :
      before.config.sharedMemoryLatency ≤ before.config.slowestAccess :=
    (le_max_left _ _).trans (le_max_right _ _)
  have slowMiss :
      before.config.missLatency ≤ before.config.slowestAccess :=
    (le_max_right _ _).trans (le_max_right _ _)
  rw [← List.length_map Prod.fst]
  unfold warpAccess at ran
  cases addresses : accesses.map Prod.fst with
  | nil =>
      simp only [addresses] at ran
      obtain ⟨shape, _⟩ := state_pure_ok.mp ran
      obtain ⟨_, rfl⟩ := Prod.mk.inj shape
      exact ⟨Nat.zero_le _, Nat.le_refl _, Nat.zero_le _⟩
  | cons first rest =>
      simp only [addresses] at ran
      split at ran
      · exact (state_throw_not_ok ran).elim
      · split at ran
        · obtain ⟨_, _, got, later⟩ := state_bind_ok.mp ran
          obtain ⟨rfl, rfl⟩ := state_get_ok.mp got
          obtain ⟨⟨_, maxLatency⟩, _, accessed, returned⟩ :=
            state_bind_ok.mp later
          obtain ⟨shape, _⟩ := state_pure_ok.mp returned
          obtain ⟨_, rfl⟩ := Prod.mk.inj shape
          have slowest := sharedAccesses_bounded takes accessed
          have conflicts :=
            computeBankConflicts_le before.sharedMemory
              ((first :: rest).map (· - sharedMemBase))
          rw [List.length_map] at conflicts
          refine ⟨?_, Nat.le_refl _, conflicts⟩
          dsimp only
          omega
        · obtain ⟨_, _, got, later⟩ := state_bind_ok.mp ran
          obtain ⟨rfl, rfl⟩ := state_get_ok.mp got
          obtain ⟨⟨maxLatency, dirty⟩, _, charged, later⟩ :=
            state_bind_ok.mp later
          obtain ⟨_, _, _, returned⟩ := state_bind_ok.mp later
          obtain ⟨shape, _⟩ := state_pure_ok.mp returned
          obtain ⟨_, rfl⟩ := Prod.mk.inj shape
          have slowest := chargeTransactions_bounded bounded charged
          have lines :=
            length_coalesce_le (first :: rest) before.l1Cache.lineSize
          refine ⟨?_, lines, Nat.zero_le _⟩
          dsimp only
          split <;> omega

theorem warpLoad_costs
    {addresses : List Nat}
    {before after : MemorySystem}
    {values : List Word}
    {result : WarpMemoryResult}
    (ran : warpLoad addresses before = .ok (values, result) after) :
    Costs before.config addresses.length result := by
  have costs := warpAccess_costs readLatency_bounded sharedLoad_takes ran
  rwa [List.length_map] at costs

theorem warpStore_costs
    {accesses : List (Nat × Word)}
    {before after : MemorySystem}
    {result : WarpMemoryResult}
    (ran : warpStore accesses before = .ok result after) :
    Costs before.config accesses.length result := by
  obtain ⟨⟨_, timing⟩, middle, accessed, returned⟩ := state_bind_ok.mp ran
  obtain ⟨rfl, _⟩ := state_pure_ok.mp returned
  refine warpAccess_costs writeLatency_bounded ?_ accessed
  intro address value before after _ latency stored
  obtain ⟨one, _, stores, returned⟩ := state_bind_ok.mp stored
  obtain ⟨shape, rfl⟩ := state_pure_ok.mp returned
  obtain ⟨_, rfl⟩ := Prod.mk.inj shape
  exact sharedStore_latency stores

theorem warpAtomicAdd_costs
    {accesses : List (Nat × Word)}
    {before after : MemorySystem}
    {result : WarpMemoryResult}
    (ran : warpAtomicAdd accesses before = .ok result after) :
    Costs before.config accesses.length result := by
  obtain ⟨⟨_, timing⟩, middle, accessed, returned⟩ := state_bind_ok.mp ran
  obtain ⟨rfl, _⟩ := state_pure_ok.mp returned
  refine warpAccess_costs writeLatency_bounded ?_ accessed
  intro address value before after _ latency added
  obtain ⟨_, _, got, loading⟩ := state_bind_ok.mp added
  obtain ⟨rfl, rfl⟩ := state_get_ok.mp got
  obtain ⟨current, _, lifted, storing⟩ := state_bind_ok.mp loading
  obtain ⟨_, rfl⟩ := InstructionExecutor.liftExcept_ok lifted
  obtain ⟨one, _, stores, returned⟩ := state_bind_ok.mp storing
  obtain ⟨shape, rfl⟩ := state_pure_ok.mp returned
  obtain ⟨_, rfl⟩ := Prod.mk.inj shape
  exact sharedStore_latency stores

end MemorySystem

/-! ## Instructions -/

namespace InstructionExecutor

/-- What an instruction that some lanes execute may cost. -/
structure Costs
    (config : MemoryAccessConfig)
    (lanes : Nat)
    (result : ExecutionResult) : Prop where
  latency : result.latency ≤ config.slowestAccess + 2 * (lanes - 1)
  transactions : result.memoryTransactions ≤ lanes
  bankConflicts : result.bankConflicts ≤ lanes - 1
  writeConflicts : result.writeConflictStalls ≤ lanes - 1

/-- An instruction that accesses no memory costs one cycle. -/
theorem Costs.of_quiet
    {config : MemoryAccessConfig}
    {lanes : Nat}
    {result : ExecutionResult}
    (latency : result.latency = 1)
    (transactions : result.memoryTransactions = 0)
    (bankConflicts : result.bankConflicts = 0)
    (writeConflicts : result.writeConflictStalls = 0) :
    Costs config lanes result := by
  have slow : 1 ≤ config.slowestAccess := le_max_left _ _
  exact ⟨by omega, by omega, by omega, by omega⟩

/-- No more lanes than there are can name one address. -/
theorem maxCollisions_le
    (addresses : List Nat) :
    maxCollisions addresses ≤ addresses.length := by
  refine foldl_max_le (Nat.zero_le _) fun entry member => ?_
  obtain ⟨address, _, rfl⟩ := List.mem_map.mp member
  exact List.count_le_length

/-- There are thirty-two lanes. -/
theorem activeThreads_le (warp : Warp) : (activeThreads warp).length ≤ 32 := by
  have ordered :
      ((warp.threads.zipIdx.filter fun indexed =>
          warp.activeMask.getLsbD indexed.2).map Prod.snd).Nodup := by
    refine ((List.filter_sublist).map Prod.snd).nodup ?_
    rw [List.zipIdx_map_snd]
    exact List.nodup_range'
  have inside :
      ((warp.threads.zipIdx.filter fun indexed =>
          warp.activeMask.getLsbD indexed.2).map Prod.snd) ⊆
        List.range 32 := by
    intro lane member
    obtain ⟨indexed, isActive, rfl⟩ := List.mem_map.mp member
    exact
      List.mem_range.mpr
        (BitVec.lt_of_getLsbD (List.mem_filter.mp isActive).2)
  have bound := (ordered.subperm inside).length_le
  rwa [List.length_map, List.length_range, ← List.length_map Prod.fst]
    at bound

/-- Gathering yields one value for each active thread. -/
theorem gatherActive_length
    {warp : Warp}
    {body : Thread → Except SimError α}
    {lanes : List (Nat × α)}
    (gathered :
      gatherActive warp.activeMask body 0 warp.threads = .ok lanes) :
    lanes.length = (activeThreads warp).length := by
  rw [← (gatherActive_ok gathered).length_eq, activeThreads,
    List.length_map]

theorem loadLanes_costs
    {inst : Instruction}
    {lanes : List (Nat × Nat)}
    {before after : Warp × MemorySystem}
    {result : ExecutionResult}
    (ran : loadLanes inst lanes before = .ok result after) :
    Costs before.2.config lanes.length result := by
  cases lanes with
  | nil =>
      obtain ⟨rfl, _⟩ := state_pure_ok.mp ran
      exact .of_quiet rfl rfl rfl rfl
  | cons first rest =>
      obtain ⟨⟨values, timing⟩, reached, performed, later⟩ :=
        state_bind_ok.mp ran
      obtain ⟨_, written, _, returned⟩ := state_bind_ok.mp later
      obtain ⟨_, loaded⟩ := onMemory_ok performed
      obtain ⟨rfl, _⟩ := state_pure_ok.mp returned
      have costs := MemorySystem.warpLoad_costs loaded
      rw [List.length_map] at costs
      obtain ⟨latency, transactions, conflicts⟩ := costs
      exact ⟨by dsimp only; omega, transactions, conflicts, Nat.zero_le _⟩

theorem storeLanes_costs
    {operation : List (Nat × Word) → MemoryM WarpMemoryResult}
    (operationCosts :
      ∀ {accesses : List (Nat × Word)} {before after : MemorySystem}
        {timing : WarpMemoryResult},
        operation accesses before = .ok timing after →
        MemorySystem.Costs before.config accesses.length timing)
    {accesses : List (Nat × Word)}
    {before after : Warp × MemorySystem}
    {result : ExecutionResult}
    (ran : storeLanes operation accesses before = .ok result after) :
    Costs before.2.config accesses.length result := by
  cases accesses with
  | nil =>
      obtain ⟨rfl, _⟩ := state_pure_ok.mp ran
      exact .of_quiet rfl rfl rfl rfl
  | cons first rest =>
      obtain ⟨timing, reached, performed, returned⟩ := state_bind_ok.mp ran
      obtain ⟨_, stored⟩ := onMemory_ok performed
      obtain ⟨rfl, _⟩ := state_pure_ok.mp returned
      obtain ⟨latency, transactions, conflicts⟩ := operationCosts stored
      have collisions := maxCollisions_le ((first :: rest).map Prod.fst)
      rw [List.length_map] at collisions
      refine ⟨?_, transactions, conflicts, ?_⟩
      · dsimp only
        split <;> omega
      · dsimp only
        split <;> omega

/-- An instruction on memory costs what its lanes may cost. -/
theorem executeLoad_costs
    {inst : Instruction}
    {before after : Warp × MemorySystem}
    {result : ExecutionResult}
    (ran : executeLoad inst before.1 before = .ok result after) :
    Costs before.2.config (activeThreads before.1).length result := by
  unfold executeLoad at ran
  obtain ⟨lanes, _, gathered, rest⟩ := state_bind_ok.mp ran
  obtain ⟨gathered, rfl⟩ := liftExcept_ok gathered
  obtain ⟨_, middle, loaded, rest⟩ := state_bind_ok.mp rest
  obtain ⟨_, _, _, returned⟩ := state_bind_ok.mp rest
  obtain ⟨rfl, _⟩ := state_pure_ok.mp returned
  rw [← gatherActive_length gathered]
  exact loadLanes_costs loaded

theorem executeStore_costs
    {inst : Instruction}
    {operation : List (Nat × Word) → MemoryM WarpMemoryResult}
    (operationCosts :
      ∀ {accesses : List (Nat × Word)} {before after : MemorySystem}
        {timing : WarpMemoryResult},
        operation accesses before = .ok timing after →
        MemorySystem.Costs before.config accesses.length timing)
    {before after : Warp × MemorySystem}
    {result : ExecutionResult}
    (ran : executeStore operation inst before.1 before = .ok result after) :
    Costs before.2.config (activeThreads before.1).length result := by
  unfold executeStore at ran
  obtain ⟨lanes, _, gathered, rest⟩ := state_bind_ok.mp ran
  obtain ⟨gathered, rfl⟩ := liftExcept_ok gathered
  obtain ⟨_, middle, stored, rest⟩ := state_bind_ok.mp rest
  obtain ⟨_, _, _, returned⟩ := state_bind_ok.mp rest
  obtain ⟨rfl, _⟩ := state_pure_ok.mp returned
  rw [← gatherActive_length gathered, ← List.length_map Prod.snd]
  exact storeLanes_costs operationCosts stored

/-- An instruction that takes one cycle and has no conflicts. -/
def Prompt (computation : ExecM ExecutionResult) : Prop :=
  ∀ (before after : Warp × MemorySystem) (result : ExecutionResult),
    computation before = .ok result after →
    result.latency = 1 ∧ result.bankConflicts = 0 ∧
      result.writeConflictStalls = 0

theorem Prompt.bind
    {first : ExecM α}
    {next : α → ExecM ExecutionResult}
    (prompt : ∀ value, Prompt (next value)) :
    Prompt (first >>= next) := by
  intro before after result ran
  obtain ⟨value, middle, _, nextRan⟩ := state_bind_ok.mp ran
  exact prompt value _ _ _ nextRan

theorem Prompt.pure (status : ExecutionStatus) :
    Prompt (pure { status := status }) := by
  intro before after other ran
  obtain ⟨rfl, _⟩ := state_pure_ok.mp ran
  exact ⟨rfl, rfl, rfl⟩

theorem Prompt.throw (error : SimError) :
    Prompt (throw error) := by
  intro before after result ran
  exact (state_throw_not_ok ran).elim

/-- All but the three memory opcodes are prompt. -/
theorem executeOpcode_prompt
    {inst : Instruction}
    (notMemory : SM.isMemoryOpcode inst.opcode = false)
    (warp : Warp) :
    Prompt (executeOpcode inst warp) := by
  unfold executeOpcode
  cases opcode : inst.opcode with
  | add | sub | mul | mov | cmp =>
      exact .bind fun _ => .bind fun _ => .pure _
  | load | store | atomicAdd =>
      rw [opcode] at notMemory
      cases notMemory
  | branch =>
      refine .bind fun taken => ?_
      split
      · exact .bind fun _ => .pure _
      · split
        · exact .bind fun _ => .pure _
        · exact .bind fun _ => .bind fun _ => .pure _
  | ssy => exact .bind fun _ => .bind fun _ => .pure _
  | sync =>
      dsimp only
      unfold executeSync
      split
      · exact .throw _
      · exact .bind fun _ => .bind fun _ => .pure _
  | barrier =>
      dsimp only
      unfold executeBarrier
      split
      · exact .throw _
      · exact .bind fun _ => .pure _
  | unknown => exact .throw _

/-- Every instruction that executes costs no more than it may. -/
theorem execute_costs
    {inst : Instruction}
    {before after : Warp × MemorySystem}
    {result : ExecutionResult}
    (ran : execute inst before = .ok result after) :
    Costs before.2.config (activeThreads before.1).length result := by
  by_cases isMemory : SM.isMemoryOpcode inst.opcode = true
  · rw [SM.isMemoryOpcode, Bool.or_eq_true, Bool.or_eq_true, beq_iff_eq,
      beq_iff_eq, beq_iff_eq] at isMemory
    rcases isMemory with (opcode | opcode) | opcode
    · simp only [execute_eq, executeOpcode, opcode] at ran
      exact executeLoad_costs ran
    · simp only [execute_eq, executeOpcode, opcode] at ran
      exact executeStore_costs MemorySystem.warpStore_costs ran
    · simp only [execute_eq, executeOpcode, opcode] at ran
      exact executeStore_costs MemorySystem.warpAtomicAdd_costs ran
  · rw [Bool.not_eq_true] at isMemory
    obtain ⟨_, _, transactions⟩ :=
      executeOpcode_quiet isMemory before.1 _ _ _ ran
    obtain ⟨latency, bankConflicts, writeConflicts⟩ :=
      executeOpcode_prompt isMemory before.1 _ _ _ ran
    exact .of_quiet latency transactions bankConflicts writeConflicts

end InstructionExecutor

/-- The largest latency of an instruction of a warp. -/
def MemoryAccessConfig.slowestInstruction
    (config : MemoryAccessConfig) :
    Nat :=
  config.slowestAccess + 62

/-- No instruction of a warp takes longer than the slowest one. -/
theorem InstructionExecutor.latency_le
    {inst : Instruction}
    {before after : Warp × MemorySystem}
    {result : ExecutionResult}
    (ran : execute inst before = .ok result after) :
    result.latency ≤ before.2.config.slowestInstruction := by
  have costs := (execute_costs ran).latency
  have lanes := activeThreads_le before.1
  unfold MemoryAccessConfig.slowestInstruction
  omega

end SimSm
