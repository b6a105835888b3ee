import SimSm.Conservation
import SimSm.EachSm
import SimSm.Termination

namespace SimSm

/-!
# What the counters of a multiprocessor can show

Whatever a multiprocessor executes, its counters stay in proportion: no more
instructions than cycles, no more memory traffic than the lanes of its memory
instructions can cause, and no wait that is longer than the run.
-/

open Outcome InstructionExecutor PerformanceCounter

namespace PerformanceCounter

/-- Counters that agree on the work that was done. -/
structure SameWork (before after : PerformanceCounter) : Prop where
  retired : after.instructionsRetired = before.instructionsRetired
  memory : after.memoryInstructions = before.memoryInstructions
  transactions : after.memoryTransactions = before.memoryTransactions
  bankConflicts : after.bankConflictStalls = before.bankConflictStalls

namespace SameWork

theorem refl (counters : PerformanceCounter) :
    SameWork counters counters :=
  ⟨rfl, rfl, rfl, rfl⟩

theorem trans
    {first second third : PerformanceCounter}
    (earlier : SameWork first second)
    (later : SameWork second third) :
    SameWork first third :=
  ⟨later.retired.trans earlier.retired, later.memory.trans earlier.memory,
    later.transactions.trans earlier.transactions,
    later.bankConflicts.trans earlier.bankConflicts⟩

end SameWork

/-- The counters of a multiprocessor are in proportion. -/
structure Proportionate (counters : PerformanceCounter) : Prop where
  retired : counters.instructionsRetired ≤ counters.cycles
  memory : counters.memoryInstructions ≤ counters.instructionsRetired
  transactions :
    counters.memoryTransactions ≤ 32 * counters.memoryInstructions
  bankConflicts :
    counters.bankConflictStalls ≤ 31 * counters.memoryInstructions
  issues : (counters.warpIssueCounts.map Prod.snd).sum ≤ counters.cycles
  noReadyWarp : counters.stallReasons .noReadyWarp = 0

end PerformanceCounter

namespace SM

variable {σ : Type}

/-- Accounting for the wait of one warp is no work. -/
theorem accountWarp_sameWork
    (selectedId : Option Nat)
    (counters : PerformanceCounter)
    (warp : Warp) :
    SameWork counters (accountWarp selectedId counters warp).1 := by
  unfold accountWarp
  split
  · split
    · exact ⟨rfl, rfl, rfl, rfl⟩
    · dsimp only
      split
      · exact ⟨rfl, rfl, rfl, rfl⟩
      · exact .refl counters
  · exact .refl counters

/-- Wait accounting is no work. -/
theorem accountWarps_sameWork
    (selectedId : Option Nat)
    (counters : PerformanceCounter)
    (warps : List Warp) :
    SameWork counters (accountWarps selectedId counters warps).1 := by
  induction warps generalizing counters with
  | nil => exact .refl counters
  | cons warp rest inductionHypothesis =>
      exact
        (accountWarp_sameWork selectedId counters warp).trans
          (inductionHypothesis _)

/-- Up to the issue a tick does no work. -/
theorem accounted_sameWork
    [WarpScheduler σ]
    (sm : SM σ) :
    SameWork sm.counters sm.accounted.counters := by
  have stalls : SameWork sm.counters sm.tickStalls.counters :=
    ⟨rfl, rfl, rfl, rfl⟩
  have accounted :=
    accountWarps_sameWork
      ((sm.selected?.bind (sm.tickStalls.warps[·]?)).map Warp.warpId)
      sm.tickStalls.counters sm.tickStalls.warps
  unfold SM.accounted accountSelection
  dsimp only
  split
  · exact (stalls.trans accounted).trans ⟨rfl, rfl, rfl, rfl⟩
  · exact stalls.trans accounted

/-- What a retired instruction adds to the work. -/
theorem retire_work
    (inst : Instruction)
    (result : ExecutionResult)
    (counters : PerformanceCounter) :
    let after := retire result (recordResult inst result counters)
    after.instructionsRetired = counters.instructionsRetired + 1 ∧
      after.memoryInstructions =
        counters.memoryInstructions + (isMemoryOpcode inst.opcode).toNat ∧
      after.memoryTransactions =
        counters.memoryTransactions +
          (isMemoryOpcode inst.opcode).toNat * result.memoryTransactions ∧
      after.bankConflictStalls =
        counters.bankConflictStalls + result.bankConflicts := by
  have stalls (count : Nat) (counters : PerformanceCounter) :
      SameWork counters
        ((fun counters : PerformanceCounter =>
            counters.addStall .writeConflict)^[count] counters) := by
    induction count with
    | zero => exact .refl counters
    | succ count inductionHypothesis =>
        rw [Function.iterate_succ_apply']
        exact inductionHypothesis.trans ⟨rfl, rfl, rfl, rfl⟩
  have recorded :
      (recordResult inst result counters).instructionsRetired =
          counters.instructionsRetired ∧
        (recordResult inst result counters).memoryInstructions =
          counters.memoryInstructions +
            (isMemoryOpcode inst.opcode).toNat ∧
        (recordResult inst result counters).memoryTransactions =
          counters.memoryTransactions +
            (isMemoryOpcode inst.opcode).toNat *
              result.memoryTransactions ∧
        (recordResult inst result counters).bankConflictStalls =
          counters.bankConflictStalls + result.bankConflicts := by
    unfold recordResult
    dsimp only
    cases isMemoryOpcode inst.opcode <;> split <;> split <;>
      simp_all [incrementMemoryInstructions, addMemoryTransactions,
        addBankConflictStalls, addDirtyEvictionWritebacks]
  obtain ⟨retired, memory, transactions, conflicts⟩ := recorded
  obtain ⟨sameRetired, sameMemory, sameTransactions, sameConflicts⟩ :=
    stalls result.writeConflictStalls (recordResult inst result counters)
  exact
    ⟨congrArg (· + 1) (sameRetired.trans retired), sameMemory.trans memory,
      sameTransactions.trans transactions, sameConflicts.trans conflicts⟩

/-- An executed instruction keeps the counters in proportion. -/
theorem executed_proportionate
    {inst : Instruction}
    {before after : Warp × MemorySystem}
    {result : ExecutionResult}
    {counters : PerformanceCounter}
    (ran : execute inst before = .ok result after)
    (memory : counters.memoryInstructions ≤ counters.instructionsRetired)
    (transactions :
      counters.memoryTransactions ≤ 32 * counters.memoryInstructions)
    (bankConflicts :
      counters.bankConflictStalls ≤ 31 * counters.memoryInstructions) :
    let final := retire result (recordResult inst result counters)
    final.memoryInstructions ≤ final.instructionsRetired ∧
      final.memoryTransactions ≤ 32 * final.memoryInstructions ∧
      final.bankConflictStalls ≤ 31 * final.memoryInstructions := by
  obtain ⟨retired, counted, transferred, conflicted⟩ :=
    retire_work inst result counters
  have costs := execute_costs ran
  have lanes := activeThreads_le before.1
  have fewTransactions := costs.transactions
  have fewConflicts := costs.bankConflicts
  dsimp only
  rw [retired, counted, transferred, conflicted]
  cases isMemory : isMemoryOpcode inst.opcode with
  | true =>
      rw [Bool.toNat_true]
      omega
  | false =>
      obtain ⟨_, noConflict, _⟩ :=
        executeOpcode_prompt isMemory before.1 _ _ _ ran
      rw [Bool.toNat_false]
      omega

section Tick

variable [WarpScheduler σ]
variable {kernel : Kernel}
variable {memory memory' : MemorySystem}
variable {sm after : SM σ}

/-- A tick keeps the counters in proportion. -/
theorem tick_proportionate
    (scheduled : sm.scheduler.isSome = true)
    (proportionate : sm.counters.Proportionate)
    (ran : sm.tick kernel memory = .ok (after, memory')) :
    after.counters.Proportionate := by
  obtain ⟨retired, memoryInstructions, transactions, conflicts, issues,
    noReadyWarp⟩ := proportionate
  have same := sm.accounted_sameWork
  have times := Accounting.tickTimes scheduled ran
  have counted :
      (after.counters.warpIssueCounts.map Prod.snd).sum ≤
          after.counters.cycles ∧
        after.counters.stallReasons .noReadyWarp = 0 := by
    generalize after.counters = counters at times
    cases times with
    | completed _ same =>
        rw [same]
        exact ⟨issues, noReadyWarp⟩
    | idle _ _ cycles reason sameIssues =>
        rw [sameIssues, cycles, reason]
        exact ⟨issues.trans (Nat.le_succ _), noReadyWarp⟩
    | issued _ _ cycles reason issued =>
        rw [issued, cycles, reason, sum_upsert_succ]
        exact ⟨Nat.succ_le_succ issues, noReadyWarp⟩
  cases ticking ran with
  | completed done =>
      exact
        ⟨retired, memoryInstructions, transactions, conflicts, issues,
          noReadyWarp⟩
  | unscheduled _ none =>
      rw [none] at scheduled
      cases scheduled
  | idle uncompleted _ _ =>
      have cycles := Accounting.tick_cycles scheduled uncompleted ran
      refine ⟨?_, ?_, ?_, ?_, counted.1, counted.2⟩
      · rw [cycles, Accounting.idle_counters uncompleted, same.retired]
        exact retired.trans (Nat.le_succ _)
      · rw [Accounting.idle_counters uncompleted, same.retired, same.memory]
        exact memoryInstructions
      · rw [Accounting.idle_counters uncompleted, same.transactions,
          same.memory]
        exact transactions
      · rw [Accounting.idle_counters uncompleted, same.bankConflicts,
          same.memory]
        exact conflicts
  | issued uncompleted _ selected issues =>
      have cycles := Accounting.tick_cycles scheduled uncompleted ran
      rw [← same.memory, ← same.retired] at memoryInstructions
      rw [← same.transactions, ← same.memory] at transactions
      rw [← same.bankConflicts, ← same.memory] at conflicts
      rw [← same.retired] at retired
      have counts := issue_counters issues
      generalize after.counters = counters at counts counted cycles
      cases counts with
      | pastEnd _ =>
          refine
            ⟨?_, memoryInstructions, transactions, conflicts, counted.1,
              counted.2⟩
          rw [cycles]
          exact retired.trans (Nat.le_succ _)
      | executed _ executes =>
          rename_i inst result _ _
          obtain ⟨fewMemory, fewTransactions, fewConflicts⟩ :=
            executed_proportionate executes memoryInstructions transactions
              conflicts
          refine
            ⟨?_, fewMemory, fewTransactions, fewConflicts, counted.1,
              counted.2⟩
          rw [cycles, (retire_work inst result sm.accounted.counters).1]
          exact Nat.succ_le_succ retired

end Tick

/-! ## Waits -/

/-- No wait, recorded or not, is longer than the run. -/
structure ShortWaits (sm : SM σ) : Prop where
  longest : sm.counters.maxWarpWaitCycles ≤ sm.counters.cycles
  current : ∀ warp ∈ sm.warps, warp.currentWaitCycles ≤ sm.counters.cycles

/-- A starvation event comes from a wait of more than a thousand cycles. -/
def Starving (counters : PerformanceCounter) (warps : List Warp) : Prop :=
  1000 < counters.maxWarpWaitCycles ∨
    ∃ warp ∈ warps, 1000 < warp.currentWaitCycles

/-- The starvation check keeps the wait, and is about long ones. -/
theorem checkAndSetStarvation_wait (warp : Warp) :
    warp.checkAndSetStarvation.2.currentWaitCycles =
        warp.currentWaitCycles ∧
      (warp.checkAndSetStarvation.1 = true →
        1000 < warp.currentWaitCycles) := by
  unfold Warp.checkAndSetStarvation
  split
  · rename_i starves
    rw [Bool.and_eq_true, decide_eq_true_iff] at starves
    exact ⟨rfl, fun _ => starves.2⟩
  · exact ⟨rfl, fun impossible => (Bool.false_ne_true impossible).elim⟩

/-- What wait accounting of one warp does to its wait and the counters. -/
inductive AccountsWait
    (counters : PerformanceCounter)
    (warp : Warp) :
    PerformanceCounter → Warp → Prop where
  | kept :
      AccountsWait counters warp counters warp
  | recorded :
      AccountsWait counters warp
        (counters.recordWarpWait warp.currentWaitCycles)
        warp.resetWaitCycles
  | waited
      {other : Warp}
      (wait : other.currentWaitCycles = warp.currentWaitCycles + 1) :
      AccountsWait counters warp counters other
  | starved
      {other : Warp}
      (wait : other.currentWaitCycles = warp.currentWaitCycles + 1)
      (long : 1000 < other.currentWaitCycles) :
      AccountsWait counters warp counters.recordStarvationEvent other

/-- There are these four cases. -/
theorem accountWarp_accountsWait
    (selectedId : Option Nat)
    (counters : PerformanceCounter)
    (warp : Warp) :
    AccountsWait counters warp (accountWarp selectedId counters warp).1
      (accountWarp selectedId counters warp).2 := by
  obtain ⟨sameWait, long⟩ :=
    checkAndSetStarvation_wait warp.incrementWaitCycles
  have wait :
      warp.incrementWaitCycles.checkAndSetStarvation.2.currentWaitCycles =
        warp.currentWaitCycles + 1 :=
    sameWait
  unfold accountWarp
  split
  · split
    · exact .recorded
    · dsimp only
      split
      · rename_i starved
        exact .starved wait (by rw [wait]; exact long starved)
      · exact .waited wait
  · exact .kept

/-- Wait accounting bounds the waits by one cycle more. -/
theorem accountWarps_short
    (selectedId : Option Nat)
    {bound : Nat}
    {counters : PerformanceCounter}
    {warps : List Warp}
    (longest : counters.maxWarpWaitCycles ≤ bound)
    (current : ∀ warp ∈ warps, warp.currentWaitCycles ≤ bound) :
    (accountWarps selectedId counters warps).1.maxWarpWaitCycles ≤ bound ∧
      ∀ warp ∈ (accountWarps selectedId counters warps).2,
        warp.currentWaitCycles ≤ bound + 1 := by
  induction warps generalizing counters with
  | nil => exact ⟨longest, fun _ member => (List.not_mem_nil member).elim⟩
  | cons warp rest inductionHypothesis =>
      obtain ⟨here, later⟩ := List.forall_mem_cons.mp current
      have accounts := accountWarp_accountsWait selectedId counters warp
      simp only [accountWarps, List.forall_mem_cons]
      generalize (accountWarp selectedId counters warp).1 = counted,
        (accountWarp selectedId counters warp).2 = changed at accounts ⊢
      have head :
          counted.maxWarpWaitCycles ≤ bound ∧
            changed.currentWaitCycles ≤ bound + 1 := by
        cases accounts with
        | kept => exact ⟨longest, here.trans (Nat.le_succ _)⟩
        | recorded => exact ⟨max_le longest here, Nat.zero_le _⟩
        | waited wait =>
            rw [wait]
            exact ⟨longest, Nat.succ_le_succ here⟩
        | starved wait _ =>
            rw [wait]
            exact ⟨longest, Nat.succ_le_succ here⟩
      obtain ⟨longestRest, currentRest⟩ :=
        inductionHypothesis head.1 later
      exact ⟨longestRest, head.2, currentRest⟩

section Starving

variable {counters : PerformanceCounter}
variable {warp : Warp}
variable {warps : List Warp}

/-- A long wait among some warps is one among more. -/
theorem Starving.cons
    (starving : Starving counters warps)
    (warp : Warp) :
    Starving counters (warp :: warps) := by
  rcases starving with recorded | ⟨other, member, long⟩
  · exact .inl recorded
  · exact .inr ⟨other, List.mem_cons_of_mem _ member, long⟩

/-- Wait accounting loses no long wait. -/
theorem Starving.accounted
    (starving : Starving counters warps)
    (selectedId : Option Nat) :
    Starving (accountWarps selectedId counters warps).1
      (accountWarps selectedId counters warps).2 := by
  induction warps generalizing counters with
  | nil => exact starving
  | cons warp rest inductionHypothesis =>
      have accounts := accountWarp_accountsWait selectedId counters warp
      simp only [accountWarps]
      generalize (accountWarp selectedId counters warp).1 = counted,
        (accountWarp selectedId counters warp).2 = changed at accounts ⊢
      rcases starving with recorded | ⟨other, member, long⟩
      · have longer : 1000 < counted.maxWarpWaitCycles := by
          cases accounts with
          | kept | waited | starved => exact recorded
          | recorded => exact recorded.trans_le (Nat.le_max_left _ _)
        exact (inductionHypothesis (.inl longer)).cons changed
      · rcases List.mem_cons.mp member with rfl | inRest
        · cases accounts with
          | kept => exact .inr ⟨_, List.mem_cons_self, long⟩
          | recorded =>
              have longer :=
                long.trans_le
                  (Nat.le_max_right counters.maxWarpWaitCycles _)
              exact (inductionHypothesis (.inl longer)).cons _
          | waited wait | starved wait _ =>
              exact
                .inr ⟨_, List.mem_cons_self, by
                  rw [wait]
                  exact Nat.lt_succ_of_lt long⟩
        · exact
            (inductionHypothesis (.inr ⟨other, inRest, long⟩)).cons changed

/-- Every starvation event comes with a long wait. -/
theorem accountWarps_starving
    (selectedId : Option Nat)
    (counters : PerformanceCounter)
    (warps : List Warp) :
    (accountWarps selectedId counters warps).1.starvationEvents =
        counters.starvationEvents ∨
      Starving (accountWarps selectedId counters warps).1
        (accountWarps selectedId counters warps).2 := by
  induction warps generalizing counters with
  | nil => exact .inl rfl
  | cons warp rest inductionHypothesis =>
      have accounts := accountWarp_accountsWait selectedId counters warp
      simp only [accountWarps]
      generalize (accountWarp selectedId counters warp).1 = counted,
        (accountWarp selectedId counters warp).2 = changed at accounts ⊢
      rcases inductionHypothesis counted with same | starving
      · cases accounts with
        | kept | recorded | waited => exact .inl same
        | starved _ long => exact .inr (.inr ⟨_, List.mem_cons_self, long⟩)
      · exact .inr (starving.cons changed)

/-- Warps with the same waits starve together. -/
theorem Starving.of_sameWaits
    {others : List Warp}
    (starving : Starving counters warps)
    (same :
      others.map Warp.currentWaitCycles =
        warps.map Warp.currentWaitCycles) :
    Starving counters others := by
  rcases starving with recorded | ⟨warp, member, long⟩
  · exact .inl recorded
  · have wait :
        warp.currentWaitCycles ∈ others.map Warp.currentWaitCycles := by
      rw [same]
      exact List.mem_map_of_mem member
    obtain ⟨other, isOther, sameWait⟩ := List.mem_map.mp wait
    exact .inr ⟨other, isOther, by rw [sameWait]; exact long⟩

end Starving

/-- Counters that agree on the waits. -/
structure SameWaits (before after : PerformanceCounter) : Prop where
  longest : after.maxWarpWaitCycles = before.maxWarpWaitCycles
  starvation : after.starvationEvents = before.starvationEvents

theorem SameWaits.trans
    {first second third : PerformanceCounter}
    (earlier : SameWaits first second)
    (later : SameWaits second third) :
    SameWaits first third :=
  ⟨later.longest.trans earlier.longest,
    later.starvation.trans earlier.starvation⟩

/-- An executed instruction counts no wait. -/
theorem retire_sameWaits
    (inst : Instruction)
    (result : ExecutionResult)
    (counters : PerformanceCounter) :
    SameWaits counters
      (retire result (recordResult inst result counters)) := by
  have stalls (count : Nat) (counters : PerformanceCounter) :
      SameWaits counters
        ((fun counters : PerformanceCounter =>
            counters.addStall .writeConflict)^[count] counters) := by
    induction count with
    | zero => exact ⟨rfl, rfl⟩
    | succ count inductionHypothesis =>
        rw [Function.iterate_succ_apply']
        exact inductionHypothesis.trans ⟨rfl, rfl⟩
  have recorded :
      SameWaits counters (recordResult inst result counters) := by
    unfold recordResult
    dsimp only
    split <;> split <;> split <;> exact ⟨rfl, rfl⟩
  have retired :=
    stalls result.writeConflictStalls (recordResult inst result counters)
  exact recorded.trans ⟨retired.longest, retired.starvation⟩

/-- Issuing a warp counts no wait. -/
theorem issue_sameWaits
    {sm after : SM σ}
    {index : Nat}
    {warp : Warp}
    {kernel : Kernel}
    {memory memory' : MemorySystem}
    (issues : sm.issue index warp kernel memory = .ok (after, memory')) :
    SameWaits sm.counters after.counters := by
  have counts := issue_counters issues
  generalize after.counters = counters at counts
  cases counts with
  | pastEnd _ => exact ⟨rfl, rfl⟩
  | executed _ _ => exact retire_sameWaits _ _ _

/-- Counting stalls down keeps the waits. -/
theorem tickStalls_waits (sm : SM σ) :
    sm.tickStalls.warps.map Warp.currentWaitCycles =
      sm.warps.map Warp.currentWaitCycles := by
  unfold tickStalls
  rw [List.map_map]
  refine List.map_congr_left fun warp _ => ?_
  simp only [Function.comp_apply, Warp.tickStall]
  split
  · split
    · rfl
    · rfl
  · rfl

section Waits

variable [WarpScheduler σ]
variable {kernel : Kernel}
variable {memory memory' : MemorySystem}
variable {sm after : SM σ}

/-- The waits before an issue are those that wait accounting leaves. -/
theorem accounted_sameWaits (sm : SM σ) :
    ∃ selectedId,
      SameWaits
          (accountWarps selectedId sm.tickStalls.counters
            sm.tickStalls.warps).1
          sm.accounted.counters ∧
        (accountWarps selectedId sm.tickStalls.counters
            sm.tickStalls.warps).2 =
          sm.accounted.warps := by
  refine
    ⟨(sm.selected?.bind (sm.tickStalls.warps[·]?)).map Warp.warpId, ?_, rfl⟩
  unfold accounted accountSelection
  dsimp only
  split
  · exact ⟨rfl, rfl⟩
  · exact ⟨rfl, rfl⟩

/-- The waits after a tick are those before its issue. -/
theorem tick_sameWaits
    [LawfulWarpScheduler σ]
    (scheduled : sm.scheduler.isSome = true)
    (uncompleted : sm.isCompleted = false)
    (ran : sm.tick kernel memory = .ok (after, memory')) :
    SameWaits sm.accounted.counters after.counters ∧
      after.warps.map Warp.currentWaitCycles =
        sm.accounted.warps.map Warp.currentWaitCycles := by
  cases ticking ran with
  | completed done =>
      rw [uncompleted] at done
      cases done
  | unscheduled _ none =>
      rw [none] at scheduled
      cases scheduled
  | idle _ _ _ =>
      rw [Accounting.idle_counters uncompleted,
        (idle_ledger sm.accounted).2.1]
      exact ⟨⟨rfl, rfl⟩, rfl⟩
  | issued _ _ selected issues =>
      have found := issued?_timed selected
      have none := Accounting.issued?_wait uncompleted selected
      obtain ⟨_, _, step⟩ := issue_ok (by exact found) issues
      exact
        ⟨issue_sameWaits issues, Accounting.issue_waits found none step⟩

/-- A tick keeps all waits short. -/
theorem ShortWaits.tick
    [LawfulWarpScheduler σ]
    (scheduled : sm.scheduler.isSome = true)
    (short : sm.ShortWaits)
    (ran : sm.tick kernel memory = .ok (after, memory')) :
    after.ShortWaits := by
  cases isCompleted : sm.isCompleted with
  | true =>
      rw [tick_completed isCompleted ran]
      exact short
  | false =>
      obtain ⟨sameWaits, waits⟩ := tick_sameWaits scheduled isCompleted ran
      obtain ⟨selectedId, accounted, warps⟩ := accounted_sameWaits sm
      have stalls :
          ∀ warp ∈ sm.tickStalls.warps,
            warp.currentWaitCycles ≤ sm.counters.cycles := by
        have mapped :
            ∀ wait ∈ sm.tickStalls.warps.map Warp.currentWaitCycles,
              wait ≤ sm.counters.cycles := by
          rw [tickStalls_waits]
          exact List.forall_mem_map.mpr short.current
        exact List.forall_mem_map.mp mapped
      obtain ⟨longest, current⟩ :=
        @accountWarps_short selectedId _ sm.tickStalls.counters _
          short.longest stalls
      have cycles := Accounting.tick_cycles scheduled isCompleted ran
      constructor
      · rw [sameWaits.longest, accounted.longest, cycles]
        exact longest.trans (Nat.le_succ _)
      · have mapped :
            ∀ wait ∈ after.warps.map Warp.currentWaitCycles,
              wait ≤ after.counters.cycles := by
          rw [waits, ← warps, cycles]
          exact List.forall_mem_map.mpr current
        exact List.forall_mem_map.mp mapped

/-- A tick loses no long wait of a starvation. -/
theorem tick_starving
    [LawfulWarpScheduler σ]
    (scheduled : sm.scheduler.isSome = true)
    (starving :
      0 < sm.counters.starvationEvents → Starving sm.counters sm.warps)
    (ran : sm.tick kernel memory = .ok (after, memory'))
    (starves : 0 < after.counters.starvationEvents) :
    Starving after.counters after.warps := by
  cases isCompleted : sm.isCompleted with
  | true =>
      rw [tick_completed isCompleted ran] at starves ⊢
      exact starving starves
  | false =>
      obtain ⟨sameWaits, waits⟩ := tick_sameWaits scheduled isCompleted ran
      obtain ⟨selectedId, accounted, warps⟩ := accounted_sameWaits sm
      have before :
          Starving sm.accounted.counters sm.accounted.warps := by
        unfold Starving
        rw [accounted.longest, ← warps]
        rcases
          accountWarps_starving selectedId sm.tickStalls.counters
            sm.tickStalls.warps with same | long
        · rw [sameWaits.starvation, accounted.starvation, same] at starves
          have stalled :
              Starving sm.tickStalls.counters sm.tickStalls.warps :=
            (starving starves).of_sameWaits (tickStalls_waits sm)
          exact stalled.accounted selectedId
        · exact long
      have final := before.of_sameWaits waits
      unfold Starving at final ⊢
      rw [sameWaits.longest]
      exact final

end Waits

/-! ## Runs -/

/-- A block whose warps are new. -/
def Untouched (block : ThreadBlock) : Prop :=
  ∀ warp ∈ block.warps, warp.Newborn

/-- What a multiprocessor can report at any time of a run. -/
structure Reported (sm : SM σ) : Prop where
  scheduled : sm.scheduler.isSome = true
  proportionate : sm.counters.Proportionate
  shortWaits : sm.ShortWaits
  inStep : sm.InStep
  starving :
    0 < sm.counters.starvationEvents → Starving sm.counters sm.warps
  writebacks :
    sm.counters.dirtyEvictionWritebacks ≤ sm.l1Cache.stats.misses
  accesses :
    sm.l1Cache.stats.hits + sm.l1Cache.stats.misses ≤
      sm.counters.memoryTransactions

namespace Reported

variable {sm after : SM σ}

/-- A multiprocessor without warps that has counted nothing. -/
theorem fresh
    (scheduled : sm.scheduler.isSome = true)
    (counters : sm.counters = {})
    (stats : sm.l1Cache.stats = {})
    (empty : sm.warps = []) :
    sm.Reported := by
  have none {motive : Warp → Prop} : ∀ warp ∈ sm.warps, motive warp := by
    rw [empty]
    exact fun _ member => (List.not_mem_nil member).elim
  refine ⟨scheduled, ?_, ⟨?_, none⟩, none, ?_, ?_, ?_⟩
  · rw [counters]
    exact
      ⟨Nat.le_refl _, Nat.le_refl _, Nat.le_refl _, Nat.le_refl _,
        Nat.le_refl _, rfl⟩
  · rw [counters]
  · rw [counters]
    exact fun impossible => (Nat.lt_irrefl _ impossible).elim
  · rw [counters]
    exact Nat.zero_le _
  · rw [counters, stats]
    exact Nat.le_refl _

/-- Admission of new warps keeps the report. -/
theorem allocateBlock
    {block : ThreadBlock}
    {req : KernelResourceRequirements}
    (untouched : Untouched block)
    (reported : sm.Reported) :
    (sm.allocateBlock block req).Reported := by
  obtain ⟨scheduled, proportionate, shortWaits, inStep, starving,
    writebacks, accesses⟩ := reported
  have admits := SM.allocateBlock_admits sm block req
  have counters := Accounting.allocateBlock_counters sm block req
  have sameCache := (SameMemory.allocateBlock sm block req).l1Cache
  have each {motive : Warp → Prop}
      (old : ∀ warp ∈ sm.warps, motive warp)
      (fresh : ∀ warp ∈ block.warps, motive warp) :
      ∀ warp ∈ (sm.allocateBlock block req).warps, motive warp := by
    rw [admits.warps]
    exact List.forall_mem_append.mpr ⟨old, fresh⟩
  refine
    ⟨by rw [admits.scheduler]; exact scheduled, ?_, ⟨?_, each ?_ ?_⟩,
      each inStep ?_, ?_, ?_, ?_⟩
  · obtain ⟨retired, memory, transactions, conflicts, issues,
      noReadyWarp⟩ := proportionate
    rw [counters]
    refine ⟨retired, memory, transactions, conflicts, ?_, noReadyWarp⟩
    rw [Accounting.sum_initializeAll]
    exact issues
  · rw [counters]
    exact shortWaits.longest
  · rw [counters]
    exact shortWaits.current
  · intro warp member
    rw [(untouched warp member).wait]
    exact Nat.zero_le _
  · exact fun warp member => (untouched warp member).unburdened.inStep
  · rw [counters, admits.warps]
    intro starves
    rcases starving starves with recorded | ⟨warp, member, long⟩
    · exact .inl recorded
    · exact .inr ⟨warp, List.mem_append_left _ member, long⟩
  · rw [counters, sameCache]
    exact writebacks
  · rw [counters, sameCache]
    exact accesses

/-- A release keeps the report, since completed warps do not wait. -/
theorem releaseCompletedBlocks
    (reported : sm.Reported) :
    sm.releaseCompletedBlocks.Reported := by
  obtain ⟨scheduled, proportionate, shortWaits, inStep, starving,
    writebacks, accesses⟩ := reported
  rw [SM.releaseCompletedBlocks_eq]
  refine
    ⟨scheduled, proportionate,
      ⟨shortWaits.longest, fun warp member =>
        shortWaits.current warp (List.mem_of_mem_filter member)⟩,
      fun warp member => inStep warp (List.mem_of_mem_filter member), ?_,
      writebacks, accesses⟩
  intro starves
  rcases starving starves with recorded | ⟨warp, member, long⟩
  · exact .inl recorded
  · have ready : warp.state = .ready :=
      (inStep warp member).wait (Nat.ne_zero_of_lt long)
    have unfinished : warp.state ≠ .completed := by
      rw [ready]
      exact WarpState.noConfusion
    exact
      .inr
        ⟨warp,
          List.mem_filter.mpr ⟨member, GPU.release_warps member unfinished⟩,
          long⟩

variable [WarpScheduler σ]
variable {kernel : Kernel}
variable {memory memory' : MemorySystem}

/-- A tick keeps the report. -/
theorem tick
    [LawfulWarpScheduler σ]
    (sameCache : memory.l1Cache = sm.l1Cache)
    (reported : sm.Reported)
    (ran : sm.tick kernel memory = .ok (after, memory')) :
    ({ after with
        sharedMemory := memory'.sharedMemory
        l1Cache := memory'.l1Cache } : SM σ).Reported := by
  obtain ⟨scheduled, proportionate, shortWaits, inStep, starving,
    writebacks, accesses⟩ := reported
  have keepsScheduler : after.scheduler.isSome = true := by
    obtain ⟨_, next, _⟩ := SM.tick_ok ran
    rw [next, SM.rescheduled]
    split
    · exact scheduled
    · rw [Option.isSome_map]
      exact scheduled
  have afterCounters := tick_proportionate scheduled proportionate ran
  have afterShort := ShortWaits.tick scheduled shortWaits ran
  have afterStarving := tick_starving scheduled starving ran
  refine
    ⟨keepsScheduler, afterCounters,
      ⟨afterShort.longest, afterShort.current⟩, ?_, afterStarving, ?_, ?_⟩
  · intro warp member
    obtain ⟨position, found⟩ := List.mem_iff_getElem?.mp member
    obtain ⟨_, _, lives⟩ := Pointwise.origin (inStep.tick ran) found
    exact lives.inStep
  · obtain ⟨tally, served, _, evicted⟩ := tick_served ran
    have fewer := served.evictions
    have misses := served.misses
    rw [sameCache] at misses
    dsimp only
    omega
  · obtain ⟨tally, served, transferred, _⟩ := tick_served ran
    have hits := served.hits
    have misses := served.misses
    rw [sameCache] at hits misses
    dsimp only
    omega

/-- The operations of a run keep the report. -/
theorem keeps
    [LawfulWarpScheduler σ]
    (kernel : Kernel) :
    SM.Keeps kernel Untouched (@Reported σ) :=
  ⟨allocateBlock, releaseCompletedBlocks, tick⟩

end Reported

end SM

end SimSm
