import SimSm.Barrier

namespace SimSm

/-!
# How long a stalled warp is unavailable

An instruction of latency `L` stalls its warp for `L - 1` cycles, and every
tick counts stalls down before it selects.  The first count falls into the very
next tick, so the warp is ready one selection before its latency has passed.
-/

open InstructionExecutor

namespace Latency

variable {σ : Type}

/-- The warp at a position is stalled, with some cycles left. -/
def Remains (warps : List Warp) (index left : Nat) : Prop :=
  ∃ warp,
    warps[index]? = some warp ∧
      warp.state = .stalled ∧ warp.stallCyclesRemaining = left

/-- A stalled warp is not ready. -/
theorem Remains.not_readyAt
    {warps : List Warp}
    {index left : Nat}
    (remains : Remains warps index left) :
    ¬ ReadyAt warps index := by
  rintro ⟨other, foundOther, ready⟩
  obtain ⟨warp, found, stalled, _⟩ := remains
  rw [found, Option.some.injEq] at foundOther
  rw [← foundOther, stalled] at ready
  cases ready

/-- The countdown before a selection keeps a warp with cycles to spare. -/
theorem Remains.tickStalls
    {sm : SM σ}
    {index left : Nat}
    (remains : Remains sm.warps index (left + 2)) :
    Remains sm.tickStalls.warps index (left + 1) := by
  obtain ⟨warp, found, stalled, isLeft⟩ := remains
  refine ⟨warp.tickStall sm.counters.cycles, ?_, ?_, ?_⟩
  · rw [SM.tickStalls, List.getElem?_map, found]
    rfl
  · simp [Warp.tickStall, stalled, isLeft]
  · simp [Warp.tickStall, stalled, isLeft]

/-- The countdown readies a warp on its last cycle. -/
theorem Remains.wakes
    {sm : SM σ}
    {index : Nat}
    (remains : Remains sm.warps index 1) :
    ReadyAt sm.tickStalls.warps index := by
  obtain ⟨warp, found, stalled, isLeft⟩ := remains
  refine ⟨warp.tickStall sm.counters.cycles, ?_, ?_⟩
  · rw [SM.tickStalls, List.getElem?_map, found]
    rfl
  · simp [Warp.tickStall, stalled, isLeft]

/-- Wait accounting leaves a warp alone that is not ready. -/
theorem accountWarps_notReady
    {selectedId : Option Nat}
    {counters : PerformanceCounter}
    {warps : List Warp}
    {position : Nat}
    {warp : Warp}
    (found : warps[position]? = some warp)
    (notReady : warp.state ≠ .ready) :
    (SM.accountWarps selectedId counters warps).2[position]? =
      some warp := by
  rw [SM.accountWarps_warps, List.getElem?_map, found, Option.map_some,
    SM.accountWarp, if_neg notReady]

/-- Issuing another warp leaves a stalled one exactly as it is. -/
theorem stalled_of_issue
    {kernel : Kernel}
    {warps after : List Warp}
    {index position : Nat}
    {warp other : Warp}
    {memory memory' : MemorySystem}
    (step : SM.IssueStep kernel warps index warp memory after memory')
    (elsewhere : position ≠ index)
    (found : warps[position]? = some other)
    (stalled : other.state = .stalled) :
    after[position]? = some other := by
  cases step with
  | pastEnd _ =>
      rw [List.getElem?_set_ne elsewhere.symm, found]
  | executed _ _ _ =>
      rw [List.getElem?_set_ne elsewhere.symm, found]
  | waits _ _ _ _ =>
      rw [List.getElem?_set_ne elsewhere.symm, found]
  | released cycle _ _ _ _ =>
      rw [List.getElem?_set_ne elsewhere.symm, List.getElem?_map, found,
        Option.map_some]
      simp [Warp.releaseFrom, stalled]

/-- An instruction of some latency leaves its warp with that many cycles. -/
theorem remains_of_issue
    [WarpScheduler σ]
    {kernel : Kernel}
    {sm after : SM σ}
    {memory memory' : MemorySystem}
    {index : Nat}
    {warp executed : Warp}
    {inst : Instruction}
    {result : ExecutionResult}
    {memoryExecuted : MemorySystem}
    (selected : sm.issued? = some (index, warp))
    (fetched : kernel.fetch? warp.warpPc = some inst)
    (executes :
      execute inst (warp, memory) = .ok result (executed, memoryExecuted))
    (notBarrier : inst.opcode ≠ .barrier)
    (inside : executed.warpPc < kernel.size)
    (ran : sm.tick kernel memory = .ok (after, memory')) :
    (result.latency ≤ 1 → after.warps[index]? = some executed) ∧
      (1 < result.latency →
        Remains after.warps index (result.latency - 1)) := by
  obtain ⟨_, _, tickStep⟩ := SM.tick_ok ran
  generalize after.warps = warps at tickStep ⊢
  have notReached : result.status ≠ .barrierReached := fun reached =>
    notBarrier ((execute_ok executes).barrier.mp reached)
  have within : index < sm.timed.length :=
    (List.getElem?_eq_some_iff.mp (SM.issued?_timed selected)).1
  cases tickStep with
  | quiet nothing _ =>
      rw [nothing] at selected
      cases selected
  | issued selectedAgain step =>
      rw [selected, Option.some.injEq, Prod.mk.injEq] at selectedAgain
      obtain ⟨rfl, rfl⟩ := selectedAgain
      cases step with
      | pastEnd outside =>
          exact (Nat.not_le.mpr (Kernel.fetch?_lt fetched) outside).elim
      | executed fetchedAgain ranAgain _ =>
          rw [fetched, Option.some.injEq] at fetchedAgain
          subst fetchedAgain
          rw [executes] at ranAgain
          cases ranAgain
          rw [List.getElem?_set_self within, SM.settle,
            if_neg (Nat.not_le.mpr inside)]
          constructor
          · intro quick
            rw [if_neg fun slow => Nat.not_lt.mpr quick slow.2]
          · intro slow
            rw [if_pos ⟨notReached, slow⟩]
            have positive : 0 < result.latency - 1 := by omega
            exact
              ⟨_, List.getElem?_set_self within,
                by simp [Warp.stall, positive, Warp.resetWaitCycles],
                by simp [Warp.stall, positive, Warp.resetWaitCycles]⟩
      | waits fetchedAgain _ barrier _ =>
          rw [fetched, Option.some.injEq] at fetchedAgain
          exact (notBarrier (by rw [fetchedAgain, barrier])).elim
      | released _ fetchedAgain _ barrier _ =>
          rw [fetched, Option.some.injEq] at fetchedAgain
          exact (notBarrier (by rw [fetchedAgain, barrier])).elim

section Ticks

variable [WarpScheduler σ] [LawfulWarpScheduler σ]
variable {kernel : Kernel}
variable {sm after : SM σ}
variable {memory memory' : MemorySystem}
variable {index left : Nat}

/-- A tick takes one cycle from a warp with cycles to spare. -/
theorem Remains.tick
    (remains : Remains sm.warps index (left + 2))
    (ran : sm.tick kernel memory = .ok (after, memory')) :
    Remains after.warps index (left + 1) := by
  have atSelection := remains.tickStalls
  have timedShape :
      ∀ {warp : Warp},
        sm.tickStalls.warps[index]? = some warp →
        warp.state = .stalled →
        sm.timed[index]? = some warp := by
    intro warp found stalled
    exact accountWarps_notReady found (by rw [stalled]; exact nofun)
  obtain ⟨warp, found, stalled, isLeft⟩ := atSelection
  have foundTimed := timedShape found stalled
  cases SM.ticking ran with
  | completed done =>
      obtain ⟨before, foundBefore, beforeStalled, _⟩ := remains
      have completed :=
        SM.completed_of_isCompleted done (List.mem_of_getElem? foundBefore)
      rw [beforeStalled] at completed
      cases completed
  | unscheduled _ _ => exact ⟨warp, found, stalled, isLeft⟩
  | idle _ _ _ =>
      obtain ⟨_, sameWarps, _⟩ := SM.idle_ledger sm.accounted
      exact ⟨warp, by rw [sameWarps]; exact foundTimed, stalled, isLeft⟩
  | issued _ _ selected issues =>
      rename_i issuedIndex issuedWarp _ _
      obtain ⟨_, _, step⟩ :=
        SM.issue_ok (by exact SM.issued?_timed selected) issues
      have elsewhere : index ≠ issuedIndex := by
        rintro rfl
        have sameWarp := SM.issued?_timed selected
        rw [foundTimed, Option.some.injEq] at sameWarp
        rw [sameWarp, SM.issued?_ready selected] at stalled
        cases stalled
      exact
        ⟨warp, stalled_of_issue step elsewhere foundTimed stalled, stalled,
          isLeft⟩

/-- Some tick leads from one state to the next. -/
def Ticks (kernel : Kernel) (sm after : SM σ) : Prop :=
  ∃ memory memory', sm.tick kernel memory = .ok (after, memory')

/-- After some ticks a stalled warp has that many cycles fewer. -/
theorem Remains.rounds
    {states : Nat → SM σ}
    {cycles round : Nat}
    (initially : Remains (states 0).warps index cycles)
    (ticks : ∀ i < round, Ticks kernel (states i) (states (i + 1)))
    (early : round < cycles) :
    Remains (states round).warps index (cycles - round) := by
  induction round with
  | zero => exact initially
  | succ round inductionHypothesis =>
      have earlier :=
        inductionHypothesis (fun i before => ticks i (by omega)) (by omega)
      obtain ⟨_, _, ran⟩ := ticks round (Nat.lt_succ_self round)
      have spare :
          cycles - round = (cycles - (round + 1) - 1) + 2 := by omega
      have rest :
          (cycles - (round + 1) - 1) + 1 = cycles - (round + 1) := by omega
      rw [spare] at earlier
      rw [← rest]
      exact earlier.tick ran

/--
The warp at a position is not ready at the next `latency - 1` selections and
ready at the one after them; selection `n + 1` is made from state `n`.
-/
def Honoured (states : Nat → SM σ) (index latency : Nat) : Prop :=
  (∀ round, 1 ≤ round → round < latency →
      ¬ ReadyAt (states (round - 1)).tickStalls.warps index) ∧
    ReadyAt (states (latency - 1)).tickStalls.warps index

/--
A warp whose instruction has latency `L ≥ 2` is not ready at the next `L - 2`
selections, and ready at the one after them.
-/
theorem unavailable_rounds
    {states : Nat → SM σ}
    {cycles : Nat}
    (initially : Remains (states 0).warps index (cycles + 1))
    (ticks : ∀ i < cycles, Ticks kernel (states i) (states (i + 1))) :
    (∀ round < cycles,
        ¬ ReadyAt (states round).tickStalls.warps index) ∧
      ReadyAt (states cycles).tickStalls.warps index := by
  constructor
  · intro round early
    have remains :
        Remains (states round).warps index (cycles + 1 - round) :=
      initially.rounds (fun i before => ticks i (by omega)) (by omega)
    have spare : cycles + 1 - round = cycles - round - 1 + 2 := by omega
    rw [spare] at remains
    exact remains.tickStalls.not_readyAt
  · have remains := initially.rounds ticks (Nat.lt_succ_self cycles)
    rw [Nat.add_sub_cancel_left] at remains
    exact remains.wakes

/--
The latency of an executed instruction that is no barrier and stays inside the
kernel is honoured exactly when it is one cycle.
-/
theorem latency_honoured_iff
    {warp executed : Warp}
    {inst : Instruction}
    {result : ExecutionResult}
    {memoryExecuted : MemorySystem}
    {states : Nat → SM σ}
    (selected : sm.issued? = some (index, warp))
    (fetched : kernel.fetch? warp.warpPc = some inst)
    (executes :
      execute inst (warp, memory) = .ok result (executed, memoryExecuted))
    (notBarrier : inst.opcode ≠ .barrier)
    (inside : executed.warpPc < kernel.size)
    (positive : 1 ≤ result.latency)
    (ran : sm.tick kernel memory = .ok (states 0, memory'))
    (ticks :
      ∀ round < result.latency,
        Ticks kernel (states round) (states (round + 1))) :
    Honoured states index result.latency ↔ result.latency = 1 := by
  obtain ⟨quick, slow⟩ :=
    remains_of_issue selected fetched executes notBarrier inside ran
  constructor
  · intro honoured
    by_contra isSlow
    obtain ⟨cycles, latency⟩ :
        ∃ cycles, result.latency = cycles + 2 :=
      ⟨result.latency - 2, by omega⟩
    rw [latency] at slow honoured ticks
    have available :=
      unavailable_rounds (slow (by omega)) fun i early =>
        ticks i (by omega)
    exact honoured.1 (cycles + 1) (by omega) (by omega) available.2
  · intro latency
    rw [latency]
    refine ⟨fun round atLeast below => by omega, ?_⟩
    have found := quick latency.le
    have ready : executed.state = .ready := by
      rw [(execute_ok executes).shell.state]
      exact SM.issued?_ready selected
    obtain ⟨after, foundAfter, waited⟩ :=
      Pointwise.partner (SM.tickStalls_waited (states 0)) found
    refine ⟨after, foundAfter, ?_⟩
    rw [waited.state_eq (by rw [ready]; exact nofun), ready]

end Ticks

/-! ## A load from shared memory -/

/-- A load from the first shared cell, and instructions to follow it. -/
def loadKernel : Kernel where
  instructions :=
    [ ⟨.load, 1, -1, -1, 0x10000000⟩,
      ⟨.mov, 2, -1, -1, 0⟩,
      ⟨.mov, 2, -1, -1, 0⟩,
      ⟨.mov, 2, -1, -1, 0⟩ ]
  lengthFits := by decide

/-- A memory system whose shared memory has some latency. -/
def loadMemory (latency : Nat) : MemorySystem :=
  { MemorySystem.minimal 1 with
    config := { sharedMemoryLatency := latency } }

/-- A multiprocessor with one warp of one thread. -/
def loadStart : SM Scheduler :=
  (SM.vacantWith Scheduler.greedy).allocateBlock (.narrow 0 1) ⟨0, 0⟩

/-- The state after a tick, or the same state when it throws. -/
def stepped (latency : Nat) (sm : SM Scheduler) : SM Scheduler :=
  match sm.tick loadKernel (loadMemory latency) with
  | .ok (after, _) => after
  | .error _ => sm

/-- The states after the tick that issues the load. -/
def loadStates (latency round : Nat) : SM Scheduler :=
  (stepped latency)^[round + 1] loadStart

theorem tick_stepped
    {latency : Nat}
    {sm : SM Scheduler}
    (isOk : (sm.tick loadKernel (loadMemory latency)).isOk = true) :
    ∃ memory',
      sm.tick loadKernel (loadMemory latency) =
        .ok (stepped latency sm, memory') := by
  unfold stepped
  cases ran : sm.tick loadKernel (loadMemory latency) with
  | error error =>
      rw [ran] at isOk
      cases isOk
  | ok pair => exact ⟨pair.2, rfl⟩

/-- The load. -/
def loadInst : Instruction :=
  ⟨.load, 1, -1, -1, 0x10000000⟩

/-- The warp that issues it. -/
def loadWarp : Warp :=
  Warp.ofThreads 0 [Thread.new 0 0 0 0 0]

/-- The latency of the load and the pc that it leaves. -/
def loadOutcome (latency : Nat) : Option (Nat × Nat) :=
  match execute loadInst (loadWarp, loadMemory latency) with
  | .ok result (executed, _) => some (result.latency, executed.warpPc)
  | .error _ _ => none

/-- The load has the latency of shared memory and stays inside the kernel. -/
theorem load_executes
    {latency : Nat}
    (outcome : loadOutcome latency = some (latency, 1)) :
    ∃ result executed memoryExecuted,
      execute loadInst (loadWarp, loadMemory latency) =
          .ok result (executed, memoryExecuted) ∧
        result.latency = latency ∧
        executed.warpPc < loadKernel.size := by
  unfold loadOutcome at outcome
  split at outcome
  · rename_i result executed memoryExecuted executes
    rw [Option.some.injEq, Prod.mk.injEq] at outcome
    refine ⟨result, executed, memoryExecuted, executes, outcome.1, ?_⟩
    rw [outcome.2]
    decide
  · cases outcome

/-- The load is issued first. -/
theorem load_issued : loadStart.issued? = some (0, loadWarp) := by
  decide +kernel

/-- Each state leads to the next while its tick does not throw. -/
theorem loadStates_ticks
    {latency round : Nat}
    (isOk :
      ((loadStates latency round).tick loadKernel
        (loadMemory latency)).isOk = true) :
    Ticks loadKernel (loadStates latency round)
      (loadStates latency (round + 1)) := by
  obtain ⟨memory', ran⟩ := tick_stepped isOk
  refine ⟨loadMemory latency, memory', ?_⟩
  rw [ran]
  simp only [loadStates, Function.iterate_succ_apply']

/-- A load of latency one is honoured. -/
theorem latency_honoured_iff_load :
    ∃ result executed memoryExecuted,
      execute loadInst (loadWarp, loadMemory 1) =
          .ok result (executed, memoryExecuted) ∧
        result.latency = 1 ∧
        (Honoured (loadStates 1) 0 result.latency ↔ result.latency = 1) := by
  obtain ⟨result, executed, memoryExecuted, executes, latency, inside⟩ :=
    @load_executes 1 (by decide +kernel)
  obtain ⟨memory', ran⟩ :=
    @tick_stepped 1 loadStart (by decide +kernel)
  refine ⟨result, executed, memoryExecuted, executes, latency, ?_⟩
  refine
    latency_honoured_iff load_issued (by decide +kernel) executes
      (by decide) inside latency.ge ran ?_
  intro round early
  have first : round = 0 := by omega
  subst first
  exact loadStates_ticks (by decide +kernel)

/-- Latency is not honoured: a load of latency two delays its warp not at all. -/
theorem load_is_early :
    ¬ ∀ (kernel : Kernel) (sm : SM Scheduler) (states : Nat → SM Scheduler)
        (memory memory' memoryExecuted : MemorySystem) (index : Nat)
        (warp executed : Warp) (inst : Instruction)
        (result : ExecutionResult),
        sm.issued? = some (index, warp) →
        kernel.fetch? warp.warpPc = some inst →
        execute inst (warp, memory) =
          .ok result (executed, memoryExecuted) →
        inst.opcode ≠ .barrier →
        executed.warpPc < kernel.size →
        1 ≤ result.latency →
        sm.tick kernel memory = .ok (states 0, memory') →
        (∀ round < result.latency,
          Ticks kernel (states round) (states (round + 1))) →
        Honoured states index result.latency := by
  intro honoured
  obtain ⟨result, executed, memoryExecuted, executes, latency, inside⟩ :=
    @load_executes 2 (by decide +kernel)
  obtain ⟨memory', ran⟩ :=
    @tick_stepped 2 loadStart (by decide +kernel)
  have isHonoured :=
    honoured loadKernel loadStart (loadStates 2) (loadMemory 2) memory'
      memoryExecuted 0 loadWarp executed loadInst result load_issued
      (by decide +kernel) executes (by decide) inside (by omega) ran
      (by
        intro round early
        rw [latency] at early
        rcases round with _ | _ | round
        · exact loadStates_ticks (by decide +kernel)
        · exact loadStates_ticks (by decide +kernel)
        · exact absurd early (by omega))
  rw [latency] at isHonoured
  refine isHonoured.1 1 le_rfl (by decide) ?_
  have states :
      ((loadStates 2 0).tickStalls.warps[0]?.map Warp.state) =
        some .ready := by
    decide +kernel
  exact Option.map_eq_some_iff.mp states

end Latency

end SimSm
