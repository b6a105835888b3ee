import SimSm.PathMachine
import SimSm.Policies
import SimSm.StreamingMultiprocessor

namespace SimSm

/-!
# A warp that runs alone

A multiprocessor that hosts one warp issues it in every cycle in which it is
ready, whatever the policy.  Its ticks refine the steps of a path machine that
also settles the ends of paths.
-/

namespace Scheduler

/-- A single ready warp of a priority above the lowest blocks no policy. -/
theorem Usable.not_blocked_single
    {scheduler : Scheduler}
    {warp : Warp}
    (usable : scheduler.Usable)
    (ready : warp.state = .ready)
    (priority : PriorityScheduler.lowest < warp.priority) :
    ¬ scheduler.Blocked [warp] := by
  intro blocked
  cases scheduler with
  | roundRobin | greedy | oldestFirst | gto =>
      exact blocked
  | priority policy =>
      exact
        Int.not_le.mpr priority (blocked warp List.mem_cons_self ready)
  | twoLevel policy =>
      obtain ⟨full, noneReady⟩ := blocked
      have nonempty : policy.pruned [warp] ≠ [] := by
        rw [← List.length_pos_iff]
        exact Nat.lt_of_lt_of_le usable full
      obtain ⟨id, rest, shape⟩ := List.exists_cons_of_ne_nil nonempty
      have member : id ∈ policy.pruned [warp] := by
        rw [shape]
        exact List.mem_cons_self
      have unfinished := (List.mem_filter.mp member).2
      have isWarp : warp.warpId = id := by
        by_contra other
        simp [TwoLevelScheduler.finished, other] at unfinished
      exact
        noneReady id member ⟨warp, List.mem_cons_self, isWarp, ready⟩

/-- A two-level scheduler keeps the size of its active set. -/
theorem twoLevel_activeSetSize
    (policy : TwoLevelScheduler)
    (warps : List Warp) :
    (policy.selectWarp warps).2.activeSetSize = policy.activeSetSize := by
  have updated :
      (policy.updateActiveSet warps).activeSetSize =
        policy.activeSetSize := by
    unfold TwoLevelScheduler.updateActiveSet
    dsimp only
    split <;> rfl
  unfold TwoLevelScheduler.selectWarp
  dsimp only
  split
  · exact updated
  · exact updated

/-- Selecting keeps a scheduler usable. -/
theorem Usable.selectWarp
    {scheduler : Scheduler}
    (usable : scheduler.Usable)
    (warps : List Warp) :
    (scheduler.selectWarp warps).2.Usable := by
  cases scheduler with
  | twoLevel policy =>
      simp only [Scheduler.selectWarp, Usable, twoLevel_activeSetSize]
      exact usable
  | roundRobin | greedy | priority | oldestFirst | gto =>
      trivial

/-- Every usable policy selects a ready warp that is alone. -/
theorem selectWarp_single
    {scheduler : Scheduler}
    {warp : Warp}
    (usable : scheduler.Usable)
    (ready : warp.state = .ready)
    (priority : PriorityScheduler.lowest < warp.priority) :
    (scheduler.selectWarp [warp]).1 = some 0 := by
  have atZero : ReadyAt [warp] 0 := ⟨warp, rfl, ready⟩
  have some :=
    (selectWarp_isSome_iff atZero).mpr
      (usable.not_blocked_single ready priority)
  obtain ⟨index, selected⟩ := Option.isSome_iff_exists.mp some
  obtain ⟨_, found, _⟩ := selectWarp_ready selected
  have inside := (List.getElem?_eq_some_iff.mp found).1
  rw [selected, Nat.lt_one_iff.mp inside]

end Scheduler

/-! ## Runs of the path machine -/

namespace PathState

/-- Resume a waiting path when the current one has left the kernel. -/
def settle (size : Nat) (state : PathState) : PathState :=
  if size ≤ state.current.pc then
    match state.pending with
    | [] => state
    | path :: rest => { state with current := path, pending := rest }
  else
    state

/-- No path is left after the current one has left the kernel. -/
def ended (size : Nat) (state : PathState) : Bool :=
  decide (size ≤ state.current.pc) && state.pending.isEmpty

end PathState

/-- A path machine with the mark of its completion. -/
structure PathRun where
  paths : PathState
  completed : Bool
  deriving DecidableEq

namespace PathRun

/--
One cycle.  A run completes in two places: when it fetches past the end of the
kernel, whatever still waits, and when its last path leaves the kernel.
-/
def step (kernel : Kernel) (run : PathRun) : Option PathRun :=
  if run.completed then
    some run
  else
    match kernel.fetch? run.paths.current.pc with
    | none => some { run with completed := true }
    | some inst =>
        (run.paths.execute inst).map fun next =>
          { paths := next.settle kernel.size
            completed := next.ended kernel.size }

/-- Several cycles. -/
def steps (kernel : Kernel) : Nat → PathRun → Option PathRun
  | 0, run => some run
  | cycles + 1, run => (run.step kernel).bind (steps kernel cycles)

/-- The pc of the instruction that the next cycle executes for a lane. -/
def executedPc? (kernel : Kernel) (lane : Nat) (run : PathRun) : Option Nat :=
  if run.completed = false ∧
      run.paths.current.mask.getLsbD lane = true ∧
      run.paths.current.pc < kernel.size then
    some run.paths.current.pc
  else
    none

/-- The pcs of the instructions that several cycles execute for a lane. -/
def lanePcs (kernel : Kernel) (lane : Nat) : Nat → PathRun → List Nat
  | 0, _ => []
  | cycles + 1, run =>
      (run.executedPc? kernel lane).toList ++
        ((run.step kernel).map (lanePcs kernel lane cycles)).getD []

end PathRun

/-- Every instruction of the kernel is regular. -/
def Kernel.Regular (kernel : Kernel) : Prop :=
  ∀ inst ∈ kernel.instructions, inst.Regular

instance (kernel : Kernel) : Decidable kernel.Regular :=
  inferInstanceAs (Decidable (∀ inst ∈ kernel.instructions, inst.Regular))

theorem Kernel.fetch?_mem
    {kernel : Kernel}
    {pc : Nat}
    {inst : Instruction}
    (fetched : kernel.fetch? pc = some inst) :
    inst ∈ kernel.instructions :=
  List.mem_of_getElem? fetched

/-- A regular instruction is no barrier. -/
theorem Instruction.Regular.not_barrier
    {inst : Instruction}
    (regular : inst.Regular) :
    inst.opcode ≠ .barrier := by
  intro opcode
  rcases regular with arithmetic | control
  · simp [Instruction.Arithmetic, opcode] at arithmetic
  · simp [Opcode.isControl, opcode] at control

/-! ## Ticks of a multiprocessor with one warp -/

namespace SM

/-- Several ticks. -/
def ticks [WarpScheduler σ]
    (kernel : Kernel) :
    Nat → SM σ → MemorySystem → Except SimError (SM σ × MemorySystem)
  | 0, sm, memory => .ok (sm, memory)
  | cycles + 1, sm, memory => do
      let (sm, memory) ← sm.tick kernel memory
      ticks kernel cycles sm memory

/-- The pc of the instruction that a tick executes for a lane of the only warp. -/
def executedPc? (kernel : Kernel) (lane : Nat) (sm : SM σ) : Option Nat :=
  match sm.warps with
  | [warp] =>
      if warp.state = .ready ∧
          warp.activeMask.getLsbD lane = true ∧
          warp.warpPc < kernel.size then
        some warp.warpPc
      else
        none
  | _ => none

/-- The pcs of the instructions that several ticks execute for a lane. -/
def lanePcs [WarpScheduler σ]
    (kernel : Kernel)
    (lane : Nat) :
    Nat → SM σ → MemorySystem → List Nat
  | 0, _, _ => []
  | cycles + 1, sm, memory =>
      (sm.executedPc? kernel lane).toList ++
        match sm.tick kernel memory with
        | .error _ => []
        | .ok (sm, memory) => lanePcs kernel lane cycles sm memory

/-- A multiprocessor whose only warp is the given one, with a scheduler. -/
structure Hosts (sm : SM Scheduler) (warp : Warp) : Prop where
  warps : sm.warps = [warp]
  scheduler : ∃ scheduler, sm.scheduler = some scheduler ∧ scheduler.Usable

/-- Only stalled warps are affected by the stall phase. -/
theorem tickStall_of_ready
    {warp : Warp}
    (ready : warp.state = .ready)
    (cycle : Nat) :
    warp.tickStall cycle = warp := by
  simp [Warp.tickStall, ready]

/-- A tick of a hosted ready warp issues it with its wait counters reset. -/
theorem Hosts.tick_eq
    {sm : SM Scheduler}
    {warp : Warp}
    (hosts : Hosts sm warp)
    (ready : warp.state = .ready)
    (priority : PriorityScheduler.lowest < warp.priority) :
    ∃ issued : SM Scheduler,
      Hosts issued warp.resetWaitCycles ∧
        ∀ (kernel : Kernel) (memory : MemorySystem),
          sm.tick kernel memory =
            issued.issue 0 warp.resetWaitCycles kernel memory := by
  obtain ⟨warps, scheduler, schedulerShape, usable⟩ := hosts
  have selected := Scheduler.selectWarp_single usable ready priority
  have running : sm.isCompleted = false := by
    simp [isCompleted, warps, ready]
  have stalledWarps : sm.tickStalls.warps = [warp] := by
    simp [tickStalls, warps, tickStall_of_ready ready]
  have stalledScheduler : sm.tickStalls.scheduler = some scheduler :=
    schedulerShape
  have accountedWarps :
      (sm.tickStalls.accountSelection (some 0)).warps =
        [warp.resetWaitCycles] := by
    simp [accountSelection, stalledWarps, accountWarps, accountWarp, ready]
  refine
    ⟨{ sm.tickStalls.accountSelection (some 0) with
        scheduler := some (scheduler.selectWarp [warp]).2 }, ?_, ?_⟩
  · exact ⟨accountedWarps, _, rfl, usable.selectWarp [warp]⟩
  · intro kernel memory
    have shape :
        WarpScheduler.selectWarp scheduler sm.tickStalls.warps =
          (some 0, (scheduler.selectWarp [warp]).2) := by
      rw [stalledWarps]
      exact Prod.ext selected rfl
    simp [tick, running, stalledScheduler, shape, accountedWarps]

/-- A hosted completed warp makes the tick a no-op. -/
theorem Hosts.tick_completed
    {sm : SM Scheduler}
    {warp : Warp}
    (hosts : Hosts sm warp)
    (completed : warp.state = .completed)
    (kernel : Kernel)
    (memory : MemorySystem) :
    sm.tick kernel memory = .ok (sm, memory) := by
  have done : sm.isCompleted = true := by
    simp [isCompleted, hosts.warps, completed]
  simp [tick, done]

/-- A hosted warp that is a run of the path machine. -/
structure Runs (sm : SM Scheduler) (run : PathRun) (warp : Warp) : Prop where
  hosts : Hosts sm warp
  paths : warp.paths = run.paths
  state : warp.state = if run.completed then .completed else .ready
  priority : PriorityScheduler.lowest < warp.priority
  lanes : warp.threads.length ≤ 32

/-- Resuming a path keeps the lanes. -/
theorem resumePath_lanes
    (warp : Warp)
    (entry : SIMTStackEntry) :
    (resumePath warp entry).lanes = warp.lanes := by
  apply List.ext_getElem?
  intro lane
  simp only [resumePath, Warp.lanes, List.getElem?_map, List.getElem?_mapIdx,
    Option.map_map]
  congr 1
  funext thread
  simp only [Function.comp_apply]
  split <;> simp [Thread.lane]

/-- Inside the kernel, an instruction of one cycle leaves nothing to settle. -/
theorem settle_inside
    {kernel : Kernel}
    {result : ExecutionResult}
    {warp : Warp}
    (inside : warp.warpPc < kernel.size)
    (latency : result.latency = 1) :
    settle kernel result warp = warp := by
  simp [settle, Nat.not_le.mpr inside, latency]

/-- Past the end of the kernel, the topmost stack entry is resumed. -/
theorem settle_resume
    {kernel : Kernel}
    {result : ExecutionResult}
    {warp : Warp}
    {entry : SIMTStackEntry}
    {rest : List SIMTStackEntry}
    (outside : kernel.size ≤ warp.warpPc)
    (stack : warp.simtStack = entry :: rest) :
    settle kernel result warp =
      resumePath { warp with simtStack := rest } entry := by
  simp [settle, outside, Warp.popSimtStack, stack]

/-- Past the end with an empty stack, a warp that does not wait completes. -/
theorem settle_complete
    {kernel : Kernel}
    {result : ExecutionResult}
    {warp : Warp}
    (outside : kernel.size ≤ warp.warpPc)
    (stack : warp.simtStack = [])
    (state : warp.state ≠ .stalledAtBarrier) :
    settle kernel result warp = warp.setCompleted := by
  simp [settle, outside, Warp.popSimtStack, stack, state]

/-- What settling leaves of a run that took one cycle. -/
structure Settled
    (kernel : Kernel)
    (warp settled : Warp) : Prop where
  paths : settled.paths = warp.paths.settle kernel.size
  state :
    settled.state =
      if warp.paths.ended kernel.size then .completed else .ready
  priority : settled.priority = warp.priority
  length : settled.threads.length = warp.threads.length

/-- Settling a ready warp settles its paths and completes it at their end. -/
theorem settle_settled
    {kernel : Kernel}
    {result : ExecutionResult}
    {warp : Warp}
    (latency : result.latency = 1)
    (ready : warp.state = .ready) :
    Settled kernel warp (settle kernel result warp) := by
  by_cases outside : kernel.size ≤ warp.warpPc
  · cases stack : warp.simtStack with
    | nil =>
        rw [settle_complete outside stack (by simp [ready])]
        refine ⟨?_, ?_, rfl, rfl⟩
        · simp [PathState.settle, Warp.paths, outside, stack,
            Warp.setCompleted, Warp.lanes]
        · simp [PathState.ended, Warp.paths, outside, stack,
            Warp.setCompleted]
    | cons entry rest =>
        rw [settle_resume outside stack]
        refine ⟨?_, ?_, rfl, by simp [resumePath]⟩
        · rw [Warp.paths, resumePath_lanes]
          simp [PathState.settle, Warp.paths, outside, stack, Warp.lanes,
            resumePath, SIMTStackEntry.path]
        · simp [PathState.ended, Warp.paths, outside, stack, resumePath,
            ready]
  · rw [settle_inside (Nat.lt_of_not_le outside) latency]
    refine ⟨?_, ?_, rfl, rfl⟩
    · simp [PathState.settle, Warp.paths, outside]
    · simp [PathState.ended, Warp.paths, outside, ready]

/-- Issuing a refined instruction leaves the settled warp hosted. -/
theorem Hosts.issue_refined
    {issued : SM Scheduler}
    {warp after : Warp}
    {inst : Instruction}
    {kernel : Kernel}
    {memory : MemorySystem}
    {next : PathState}
    {result : ExecutionResult}
    (hosts : Hosts issued warp)
    (fetched : kernel.fetch? warp.warpPc = some inst)
    (regular : inst.Regular)
    (refined : Refined inst warp memory next result after) :
    ∃ final,
      issued.issue 0 warp kernel memory = .ok (final, memory) ∧
        Hosts final (settle kernel result after) := by
  have notBarrier : result.status ≠ .barrierReached := fun reached =>
    regular.not_barrier
      ((InstructionExecutor.execute_ok refined.ran).barrier.mp reached)
  refine
    ⟨{ issued.setWarp 0 after with
        warps := [settle kernel result after]
        counters :=
          retire result (recordResult inst result issued.counters) }, ?_, ?_⟩
  · simp [issue, fetched, refined.ran, notBarrier, setWarp, hosts.warps,
      bind, Except.bind, pure, Except.pure]
  · exact ⟨rfl, hosts.scheduler⟩

/-- Refinement: one tick of a hosted warp is one step of the path machine. -/
theorem Runs.tick
    {sm : SM Scheduler}
    {run next : PathRun}
    {warp : Warp}
    {kernel : Kernel}
    (runs : Runs sm run warp)
    (regular : kernel.Regular)
    (stepped : run.step kernel = some next)
    (memory : MemorySystem) :
    ∃ after warp',
      sm.tick kernel memory = .ok (after, memory) ∧
        Runs after next warp' := by
  unfold PathRun.step at stepped
  split at stepped
  · rename_i completed
    cases stepped
    have state : warp.state = .completed := by
      rw [runs.state, if_pos completed]
    exact ⟨sm, warp, runs.hosts.tick_completed state kernel memory, runs⟩
  · rename_i running
    have ready : warp.state = .ready := by
      rw [runs.state, if_neg running]
    obtain ⟨issued, hosts, tickShape⟩ :=
      runs.hosts.tick_eq ready runs.priority
    have samePc : warp.resetWaitCycles.warpPc = run.paths.current.pc :=
      congrArg (fun paths => paths.current.pc) runs.paths
    rw [tickShape]
    split at stepped
    · rename_i outside
      cases stepped
      rw [← samePc] at outside
      refine
        ⟨issued.setWarp 0 warp.resetWaitCycles.setCompleted,
          warp.resetWaitCycles.setCompleted, ?_, ?_⟩
      · simp [issue, outside]
      · exact
          ⟨⟨by simp [setWarp, hosts.warps], hosts.scheduler⟩, runs.paths,
            rfl, runs.priority, runs.lanes⟩
    · rename_i inst fetched
      obtain ⟨paths, executed, shape⟩ := Option.map_eq_some_iff.mp stepped
      subst shape
      rw [← samePc] at fetched
      have instRegular := regular inst (Kernel.fetch?_mem fetched)
      obtain ⟨result, after, refined⟩ :=
        execute_refines instRegular
          (show warp.resetWaitCycles.threads.length ≤ 32 from runs.lanes)
          (by rw [← executed, ← runs.paths]; rfl) memory
      obtain ⟨final, issueShape, finalHosts⟩ :=
        hosts.issue_refined fetched instRegular refined
      have shell := (InstructionExecutor.execute_ok refined.ran).shell
      have settled :=
        @settle_settled kernel result after refined.latency
          (shell.state.trans ready)
      refine ⟨final, _, issueShape, finalHosts, ?_, ?_, ?_, ?_⟩
      · rw [settled.paths, refined.paths]
      · rw [settled.state, refined.paths]
      · rw [settled.priority, shell.priority]
        exact runs.priority
      · rw [settled.length, shell.length_threads]
        exact runs.lanes

/-- Refinement over whole runs. -/
theorem Runs.ticks
    {sm : SM Scheduler}
    {run next : PathRun}
    {warp : Warp}
    {kernel : Kernel}
    {cycles : Nat}
    (runs : Runs sm run warp)
    (regular : kernel.Regular)
    (stepped : run.steps kernel cycles = some next)
    (memory : MemorySystem) :
    ∃ after warp',
      sm.ticks kernel cycles memory = .ok (after, memory) ∧
        Runs after next warp' := by
  induction cycles generalizing sm run warp with
  | zero =>
      cases stepped
      exact ⟨sm, warp, rfl, runs⟩
  | succ cycles inductionHypothesis =>
      obtain ⟨middle, first, rest⟩ := Option.bind_eq_some_iff.mp stepped
      obtain ⟨ticked, tickedWarp, tickShape, tickedRuns⟩ :=
        runs.tick regular first memory
      obtain ⟨after, afterWarp, restShape, afterRuns⟩ :=
        inductionHypothesis tickedRuns rest
      refine ⟨after, afterWarp, ?_, afterRuns⟩
      simp [SM.ticks, tickShape, restShape, bind, Except.bind]

/-- A tick executes for a lane what the path machine does. -/
theorem Runs.executedPc?
    {sm : SM Scheduler}
    {run : PathRun}
    {warp : Warp}
    (runs : Runs sm run warp)
    (kernel : Kernel)
    (lane : Nat) :
    sm.executedPc? kernel lane = run.executedPc? kernel lane := by
  have mask : warp.activeMask = run.paths.current.mask :=
    congrArg (fun paths => paths.current.mask) runs.paths
  have pc : warp.warpPc = run.paths.current.pc :=
    congrArg (fun paths => paths.current.pc) runs.paths
  simp only [SM.executedPc?, PathRun.executedPc?, runs.hosts.warps, mask, pc,
    runs.state]
  cases run.completed <;> simp

/-- Several ticks execute for a lane what the path machine does. -/
theorem Runs.lanePcs
    {sm : SM Scheduler}
    {run next : PathRun}
    {warp : Warp}
    {kernel : Kernel}
    {cycles : Nat}
    (runs : Runs sm run warp)
    (regular : kernel.Regular)
    (stepped : run.steps kernel cycles = some next)
    (lane : Nat)
    (memory : MemorySystem) :
    sm.lanePcs kernel lane cycles memory = run.lanePcs kernel lane cycles := by
  induction cycles generalizing sm run warp with
  | zero => rfl
  | succ cycles inductionHypothesis =>
      obtain ⟨middle, first, rest⟩ := Option.bind_eq_some_iff.mp stepped
      obtain ⟨ticked, tickedWarp, tickShape, tickedRuns⟩ :=
        runs.tick regular first memory
      simp only [SM.lanePcs, PathRun.lanePcs, runs.executedPc?, tickShape,
        first, Option.map_some, Option.getD_some]
      rw [inductionHypothesis tickedRuns rest]

/-- A multiprocessor on which one warp has been placed. -/
def hosting (warp : Warp) (scheduler : Scheduler) : SM Scheduler where
  warps := [warp]
  scheduler := some scheduler
  l1Cache := (MemorySystem.minimal 1).l1Cache
  sharedMemory := (MemorySystem.minimal 1).sharedMemory

theorem hosts_hosting
    (warp : Warp)
    {scheduler : Scheduler}
    (usable : scheduler.Usable) :
    (hosting warp scheduler).Hosts warp :=
  ⟨rfl, scheduler, rfl, usable⟩

/-- Repeated ticks bring the hosted warp to completion. -/
def EndsIn
    (kernel : Kernel)
    (sm : SM Scheduler)
    (memory : MemorySystem)
    (final : Warp) : Prop :=
  ∃ cycles after,
    sm.ticks kernel cycles memory = .ok (after, memory) ∧
      Hosts after final ∧ final.state = .completed

end SM

/-! ## Warps at the start of a kernel -/

/-- A warp of 1 to 32 lanes at the start of a kernel, with any registers. -/
structure Warp.Fresh (warp : Warp) : Prop where
  nonempty : 1 ≤ warp.threads.length
  lanes : warp.threads.length ≤ 32
  state : warp.state = .ready
  pc : warp.warpPc = 0
  mask : warp.activeMask = ActiveMask.full warp.threads.length
  stack : warp.simtStack = []
  priority : PriorityScheduler.lowest < warp.priority

namespace Warp.Fresh

/-- The path machine at the start of a kernel. -/
def start (lanes : List LaneState) : PathState where
  lanes := lanes
  current := ⟨ActiveMask.full lanes.length, 0⟩
  pending := []

theorem paths
    {warp : Warp}
    (fresh : warp.Fresh) :
    warp.paths = start warp.lanes := by
  simp [Warp.paths, start, fresh.pc, fresh.mask, fresh.stack, Warp.lanes]

/-- A hosted fresh warp runs the path machine from its start. -/
theorem runs
    {warp : Warp}
    (fresh : warp.Fresh)
    {sm : SM Scheduler}
    (hosts : sm.Hosts warp) :
    sm.Runs ⟨start warp.lanes, false⟩ warp where
  hosts := hosts
  paths := fresh.paths
  state := fresh.state
  priority := fresh.priority
  lanes := fresh.lanes

end Warp.Fresh

/-- The lanes of a fresh warp's mask are its threads. -/
theorem ActiveMask.getLsbD_full_lanes
    {lanes : Nat}
    (inRange : lanes ≤ 32)
    (lane : Nat) :
    (ActiveMask.full lanes).getLsbD lane = true ↔ lane < lanes := by
  rw [ActiveMask.getLsbD_full]
  simp only [Bool.and_eq_true, decide_eq_true_eq, and_iff_right_iff_imp]
  exact fun inside => Nat.lt_of_lt_of_le inside inRange

/-- Building a warp from at most 32 threads activates exactly those lanes. -/
theorem Warp.ofThreads_eq
    (warpId : Nat)
    {threads : List Thread}
    (lanes : threads.length ≤ 32) :
    Warp.ofThreads warpId threads =
      { warpId := warpId
        threads := threads
        activeMask := ActiveMask.full threads.length } := by
  induction threads using List.reverseRecOn with
  | nil => rfl
  | append_singleton earlier last inductionHypothesis =>
      simp only [List.length_append, List.length_singleton] at lanes
      rw [Warp.ofThreads, List.foldl_append]
      change (Warp.ofThreads warpId earlier).addThread last = _
      rw [inductionHypothesis (Nat.le_of_succ_le lanes)]
      have inRange : earlier.length < 32 := lanes
      simp only [Warp.addThread, inRange, if_true, List.length_append,
        List.length_singleton, Warp.mk.injEq, true_and, and_true]
      apply ActiveMask.eq_of_lanes
      intro lane laneInRange
      rw [ActiveMask.getLsbD_set, Bool.eq_iff_iff]
      simp only [ActiveMask.getLsbD_full, laneInRange, inRange, decide_true,
        Bool.true_and, Bool.and_true, Bool.or_eq_true, decide_eq_true_eq]
      exact Nat.lt_succ_iff_lt_or_eq.symm

/-- Every warp built from 1 to 32 threads is fresh. -/
theorem Warp.fresh_ofThreads
    (warpId : Nat)
    {threads : List Thread}
    (nonempty : 1 ≤ threads.length)
    (lanes : threads.length ≤ 32) :
    (Warp.ofThreads warpId threads).Fresh := by
  rw [Warp.ofThreads_eq warpId lanes]
  exact
    ⟨nonempty, lanes, rfl, rfl, rfl, rfl,
      show PriorityScheduler.lowest < 0 by decide⟩

end SimSm
