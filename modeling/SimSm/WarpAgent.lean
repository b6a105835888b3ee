import SimSm.GridRun
import SimSm.SingleWarp

namespace SimSm

/-!
# Warps as agents that share the memory

Seen from the memory, a warp of a kernel is a deterministic agent: its paths
decide what it accesses next, and memory decides only what it loads.  Timing
never enters.
-/

open Interleaving

/-- Lanes that are transformed alike where a mask is set. -/
theorem onMask_congr
    {mask : ActiveMask}
    {first second : LaneState → LaneState}
    {lanes : List LaneState}
    (same :
      ∀ lane state,
        lanes[lane]? = some state →
        mask.getLsbD lane = true →
        first state = second state) :
    onMask mask first lanes = onMask mask second lanes := by
  apply List.ext_getElem?
  intro lane
  simp only [getElem?_onMask]
  cases found : lanes[lane]? with
  | none => rfl
  | some state =>
      cases active : mask.getLsbD lane with
      | false => rfl
      | true => simp [same lane state found active]

namespace PathState

/-- What a memory holds where nothing is loaded does not matter. -/
theorem executeWith_congr
    {inst : Instruction}
    {state : PathState}
    {view other : Nat → Word}
    (same :
      ∀ address,
        .load address ∈ state.accesses inst →
        view address = other address) :
    state.executeWith inst view = state.executeWith inst other := by
  unfold executeWith
  congr 2
  funext next
  congr 1
  refine onMask_congr fun lane laneState found active => ?_
  unfold LaneState.executeWith
  split
  · rename_i isLoad
    congr 1
    apply same
    refine List.mem_filterMap.mpr ⟨(lane, laneState), ?_, ?_⟩
    · exact
        mem_activeLanes.mpr
          ⟨lane, (Nat.zero_add lane).symm, found, active⟩
    · simp only [LaneState.access?, isLoad]
  · rfl

end PathState

namespace PathRun

/--
What a run accesses next.  It stops when it is completed, at a barrier, and at
a `SYNC` with nothing to resume.
-/
def accesses? (kernel : Kernel) (run : PathRun) : Option (List (Access Nat Word)) :=
  if run.completed then
    none
  else
    match kernel.fetch? run.paths.current.pc with
    | none => some []
    | some inst =>
        if inst.opcode = .barrier then
          none
        else
          (run.paths.execute inst).map fun _ => run.paths.accesses inst

/-- The run after an instruction. -/
def after (kernel : Kernel) (next : PathState) : PathRun where
  paths := next.settle kernel.size
  completed := next.ended kernel.size

/-- The run after its next instruction, with the data of memory at hand. -/
def nextWith
    (kernel : Kernel)
    (run : PathRun)
    (view : Nat → Word) :
    PathRun :=
  match kernel.fetch? run.paths.current.pc with
  | none => { run with completed := true }
  | some inst =>
      ((run.paths.executeWith inst view).map (after kernel)).getD run

/-- The run past the barrier at which it stops, unless that ends it. -/
def arrive? (kernel : Kernel) (run : PathRun) : Option PathRun :=
  if run.completed then
    none
  else
    match kernel.fetch? run.paths.current.pc with
    | none => none
    | some inst =>
        if inst.opcode = .barrier then
          ((run.paths.execute inst).map (after kernel)).filter
            fun next => !next.completed
        else
          none

end PathRun

/-- The next instruction of a run is a barrier. -/
def PathRun.AtBarrier (kernel : Kernel) (run : PathRun) : Prop :=
  ∃ inst,
    kernel.fetch? run.paths.current.pc = some inst ∧
      inst.opcode = .barrier

/-- A kernel without barriers. -/
def Kernel.NoBarrier (kernel : Kernel) : Prop :=
  ∀ inst ∈ kernel.instructions, inst.opcode ≠ .barrier

instance (kernel : Kernel) : Decidable kernel.NoBarrier :=
  inferInstanceAs
    (Decidable (∀ inst ∈ kernel.instructions, inst.opcode ≠ .barrier))

/-- The warps of a kernel as agents. -/
def Kernel.agent (kernel : Kernel) : Agent PathRun Nat Word where
  accesses := PathRun.accesses? kernel
  next := PathRun.nextWith kernel
  consults := by
    intro here memory other performed accesses same
    unfold PathRun.accesses? at accesses
    unfold PathRun.nextWith
    split at accesses
    · cases accesses
    · cases fetched : kernel.fetch? here.paths.current.pc with
      | none => rfl
      | some inst =>
          rw [fetched] at accesses
          dsimp only at accesses ⊢
          split at accesses
          · cases accesses
          · obtain ⟨_, _, rfl⟩ := Option.map_eq_some_iff.mp accesses
            rw [PathState.executeWith_congr same]

/-- A run that has stopped at a barrier has nothing to access. -/
theorem PathRun.accesses?_of_arrive
    {kernel : Kernel}
    {run next : PathRun}
    (arrives : run.arrive? kernel = some next) :
    run.accesses? kernel = none := by
  unfold PathRun.arrive? at arrives
  unfold PathRun.accesses?
  split
  · rfl
  · rename_i running
    rw [if_neg running] at arrives
    cases fetched : kernel.fetch? run.paths.current.pc with
    | none =>
        rw [fetched] at arrives
        cases arrives
    | some inst =>
        rw [fetched] at arrives
        dsimp only at arrives ⊢
        split at arrives
        · rename_i barrier
          rw [if_pos barrier]
        · cases arrives

/-! ## The warps of a multiprocessor -/

/-- The accesses of the instruction that a warp is about to execute. -/
def Warp.accesses (kernel : Kernel) (warp : Warp) : List (Access Nat Word) :=
  match kernel.fetch? warp.warpPc with
  | none => []
  | some inst => warp.paths.accesses inst

/-- A warp is where a run of the path machine is. -/
structure Warp.IsAt (warp : Warp) (run : PathRun) : Prop where
  paths : warp.paths = run.paths
  completed : warp.state = .completed ↔ run.completed = true

/-- Warps of one core are on the same paths. -/
theorem SameCore.paths
    {before after : Warp}
    (same : SameCore before after) :
    after.paths = before.paths := by
  simp [Warp.paths, Warp.lanes, same.threads, same.activeMask, same.warpPc,
    same.simtStack]

/-- Waiting leaves a warp where it is. -/
theorem Warp.IsAt.waited
    {before after : Warp}
    {run : PathRun}
    (isAt : before.IsAt run)
    (waited : Waited before after) :
    after.IsAt run :=
  ⟨waited.core.paths.trans isAt.paths,
    waited.completed_iff.trans isAt.completed⟩

/-- Accesses of a warp are those of its run. -/
theorem Warp.IsAt.accesses
    {kernel : Kernel}
    {warp : Warp}
    {run : PathRun}
    {performed : List (Access Nat Word)}
    (isAt : warp.IsAt run)
    (accesses : run.accesses? kernel = some performed) :
    warp.accesses kernel = performed := by
  unfold PathRun.accesses? at accesses
  unfold Warp.accesses
  rw [← isAt.paths] at accesses
  split at accesses
  · cases accesses
  · cases fetched : kernel.fetch? warp.warpPc with
    | none =>
        rw [show kernel.fetch? warp.paths.current.pc = none from fetched]
          at accesses
        cases accesses
        rfl
    | some inst =>
        rw [show kernel.fetch? warp.paths.current.pc = some inst
          from fetched] at accesses
        dsimp only at accesses ⊢
        split at accesses
        · cases accesses
        · obtain ⟨_, _, same⟩ := Option.map_eq_some_iff.mp accesses
          exact same

namespace SM

/-- Settling a warp settles its paths. -/
theorem settle_paths
    (kernel : Kernel)
    (result : ExecutionResult)
    (warp : Warp) :
    (settle kernel result warp).paths = warp.paths.settle kernel.size := by
  unfold settle PathState.settle
  by_cases outside : kernel.size ≤ warp.warpPc
  · have pathsOutside : kernel.size ≤ warp.paths.current.pc := outside
    rw [if_pos outside]
    cases stack : warp.simtStack with
    | nil =>
        have none : warp.popSimtStack = none := by
          rw [Warp.popSimtStack, stack]
        have noPending : warp.paths.pending = [] := by
          rw [Warp.paths, stack]
          rfl
        rw [none, if_pos pathsOutside, noPending]
        dsimp only
        split <;> rfl
    | cons entry rest =>
        have popped :
            warp.popSimtStack =
              some (entry, { warp with simtStack := rest }) := by
          rw [Warp.popSimtStack, stack]
        have pending :
            warp.paths.pending =
              entry.path :: rest.map SIMTStackEntry.path := by
          rw [Warp.paths, stack]
          rfl
        rw [popped, if_pos pathsOutside, pending]
        dsimp only
        rw [Warp.paths, resumePath_lanes]
        rfl
  · have pathsInside : ¬ kernel.size ≤ warp.paths.current.pc := outside
    rw [if_neg outside, if_neg pathsInside]
    split
    · exact (stall_core warp _).paths
    · rfl

/-- A warp has ended when its paths have. -/
theorem ended_iff
    {kernel : Kernel}
    {warp : Warp} :
    warp.paths.ended kernel.size = true ↔ Ended kernel warp := by
  unfold PathState.ended Ended Warp.paths
  simp

/-- A ready warp that settles is where its run is after the instruction. -/
theorem settle_isAt
    {kernel : Kernel}
    {result : ExecutionResult}
    {warp : Warp}
    (ready : warp.state = .ready) :
    (settle kernel result warp).IsAt (.after kernel warp.paths) ∧
      (settle kernel result warp).state ≠ .stalledAtBarrier := by
  rcases (settle_ready ready :
      (_ ∧ (settle kernel result warp).state = _) ∨ _) with
    ⟨ended, completed⟩ | ⟨goesOn, running⟩
  · refine ⟨⟨settle_paths kernel result warp, ?_⟩, by simp [completed]⟩
    simp only [completed, true_iff]
    exact ended_iff.mpr ended
  · refine ⟨⟨settle_paths kernel result warp, ?_⟩, running.1⟩
    constructor
    · exact fun completed => (running.2 completed).elim
    · exact fun ended => (goesOn (ended_iff.mp ended)).elim

/-- What issuing does to the warp that stands where a run is. -/
inductive AgentStep
    (kernel : Kernel)
    (blockId : Nat)
    (warps : List Warp)
    (index : Nat)
    (warp : Warp)
    (run : PathRun)
    (memory : MemorySystem) :
    List Warp → MemorySystem → Prop where
  | goesOn
      {performed : List (Access Nat Word)}
      {changed : Warp}
      {memory' : MemorySystem}
      (accesses : run.accesses? kernel = some performed)
      (effect : MemoryEffect performed memory memory')
      (isAt : changed.IsAt (run.nextWith kernel memory.view))
      (notWaiting : changed.state ≠ .stalledAtBarrier) :
      AgentStep kernel blockId warps index warp run memory
        (warps.set index changed) memory'
  | waits
      {changed : Warp}
      {memory' : MemorySystem}
      (atBarrier : run.AtBarrier kernel)
      (stops : run.accesses? kernel = none)
      (effect : MemoryEffect [] memory memory')
      (isAt :
        ∀ next, run.arrive? kernel = some next → changed.IsAt next)
      (waiting : changed.state = .stalledAtBarrier)
      (otherRuns : OtherRuns warps index blockId) :
      AgentStep kernel blockId warps index warp run memory
        (warps.set index changed) memory'
  | released
      {changed : Warp}
      {memory' : MemorySystem}
      (cycle : Nat)
      (atBarrier : run.AtBarrier kernel)
      (stops : run.accesses? kernel = none)
      (effect : MemoryEffect [] memory memory')
      (isAt :
        ∀ next,
          run.arrive? kernel = some next →
          changed.IsAt next ∧ changed.state = .ready)
      (othersWait : OthersWait warps index blockId) :
      AgentStep kernel blockId warps index warp run memory
        ((warps.map (Warp.releaseFrom blockId cycle)).set index changed)
        memory'

/-- A warp that executes a barrier stops there and arrives. -/
theorem barrier_arrive
    {kernel : Kernel}
    {inst : Instruction}
    {warp executed : Warp}
    {run : PathRun}
    {memory memory' : MemorySystem}
    {result : ExecutionResult}
    (isAt : warp.IsAt run)
    (running : run.completed = false)
    (fetched : kernel.fetch? run.paths.current.pc = some inst)
    (barrier : inst.opcode = .barrier)
    (ran :
      InstructionExecutor.execute inst (warp, memory) =
        .ok result (executed, memory')) :
    run.accesses? kernel = none ∧
      MemoryEffect [] memory memory' ∧
      ∀ next,
        run.arrive? kernel = some next →
        next = .after kernel executed.paths ∧ next.completed = false := by
  obtain ⟨moved, effect⟩ := InstructionExecutor.execute_memory ran
  rw [isAt.paths] at moved effect
  have notMemory : ¬ InstructionExecutor.IsMemory inst := by
    simp [InstructionExecutor.IsMemory, barrier]
  rw [InstructionExecutor.accesses_eq_nil notMemory] at effect
  have sameExecute :
      run.paths.executeWith inst memory.view = run.paths.execute inst := by
    have meaning :
        LaneState.executeWith inst memory.view =
          LaneState.execute inst := by
      funext lane
      exact if_neg (by simp [barrier])
    simp only [PathState.executeWith, PathState.execute, barrier, meaning,
      Option.map_some]
  refine ⟨?_, effect, fun next arrives => ?_⟩
  · rw [PathRun.accesses?, running, fetched]
    dsimp only
    rw [if_neg Bool.false_ne_true, if_pos barrier]
  · rw [PathRun.arrive?, running, fetched] at arrives
    dsimp only at arrives
    rw [if_neg Bool.false_ne_true, if_pos barrier, ← sameExecute, moved,
      Option.map_some, Option.filter_eq_some_iff, Option.some.injEq]
      at arrives
    exact ⟨arrives.1.symm, by simpa using arrives.2⟩

/-- An issued warp that executes no barrier proceeds as its agent. -/
structure Proceeds
    (kernel : Kernel)
    (run : PathRun)
    (memory : MemorySystem)
    (performed : List (Access Nat Word))
    (changed : Warp)
    (memory' : MemorySystem) :
    Prop where
  accesses : run.accesses? kernel = some performed
  effect : MemoryEffect performed memory memory'
  isAt : changed.IsAt (run.nextWith kernel memory.view)
  notWaiting : changed.state ≠ .stalledAtBarrier

section Proceeds

variable {kernel : Kernel}
variable {warp : Warp}
variable {run : PathRun}
variable {memory memory' : MemorySystem}

/-- The agent of a ready warp has not completed. -/
theorem running_of_ready
    (ready : warp.state = .ready)
    (isAt : warp.IsAt run) :
    run.completed = false := by
  rw [← Bool.not_eq_true, ← isAt.completed, ready]
  exact nofun

/-- A warp past the end of the kernel completes. -/
theorem proceeds_pastEnd
    (ready : warp.state = .ready)
    (isAt : warp.IsAt run)
    (outside : kernel.size ≤ warp.warpPc) :
    Proceeds kernel run memory [] warp.setCompleted memory := by
  have fetched : kernel.fetch? run.paths.current.pc = none := by
    rw [← isAt.paths]
    exact Kernel.fetch?_eq_none_iff.mpr outside
  have accesses : run.accesses? kernel = some [] := by
    rw [PathRun.accesses?, running_of_ready ready isAt, fetched]
    rfl
  refine ⟨accesses, .of_sameData rfl rfl, ⟨?_, ?_⟩, nofun⟩
  · rw [PathRun.nextWith, fetched]
    exact isAt.paths
  · rw [PathRun.nextWith, fetched]
    exact iff_of_true rfl rfl

/-- A warp that executes an instruction other than a barrier settles. -/
theorem proceeds_executed
    {inst : Instruction}
    {executed : Warp}
    {result : ExecutionResult}
    (ready : warp.state = .ready)
    (isAt : warp.IsAt run)
    (fetched : kernel.fetch? warp.warpPc = some inst)
    (ran :
      InstructionExecutor.execute inst (warp, memory) =
        .ok result (executed, memory'))
    (notBarrier : inst.opcode ≠ .barrier) :
    Proceeds kernel run memory (run.paths.accesses inst)
      (settle kernel result executed) memory' := by
  have running := running_of_ready ready isAt
  have fetchedRun : kernel.fetch? run.paths.current.pc = some inst := by
    rw [← isAt.paths]
    exact fetched
  obtain ⟨moved, effect⟩ := InstructionExecutor.execute_memory ran
  have state : executed.state = .ready :=
    (InstructionExecutor.execute_ok ran).shell.state.trans ready
  rw [isAt.paths] at moved effect
  obtain ⟨next, executes, _⟩ := Option.map_eq_some_iff.mp moved
  have accesses :
      run.accesses? kernel = some (run.paths.accesses inst) := by
    rw [PathRun.accesses?, running, fetchedRun]
    dsimp only
    rw [if_neg Bool.false_ne_true, if_neg notBarrier, executes]
    rfl
  have nextWith :
      run.nextWith kernel memory.view = .after kernel executed.paths := by
    rw [PathRun.nextWith, fetchedRun]
    dsimp only
    rw [moved]
    rfl
  obtain ⟨settled, notWaiting⟩ := @settle_isAt kernel result executed state
  rw [← nextWith] at settled
  exact ⟨accesses, effect, settled, notWaiting⟩

/-- Where there are no barriers, the issued warp proceeds and no other moves. -/
theorem IssueStep.proceeds
    {warps after : List Warp}
    {index : Nat}
    (step : IssueStep kernel warps index warp memory after memory')
    (noBarrier : kernel.NoBarrier)
    (ready : warp.state = .ready)
    (isAt : warp.IsAt run) :
    ∃ performed changed,
      after = warps.set index changed ∧
        Proceeds kernel run memory performed changed memory' := by
  cases step with
  | pastEnd outside =>
      exact ⟨_, _, rfl, proceeds_pastEnd ready isAt outside⟩
  | executed fetched ran notBarrier =>
      exact ⟨_, _, rfl, proceeds_executed ready isAt fetched ran notBarrier⟩
  | waits fetched _ barrier _ | released _ fetched _ barrier _ =>
      exact (noBarrier _ (Kernel.fetch?_mem fetched) barrier).elim

end Proceeds

/-- An issue step is one of the agent that the warp is. -/
theorem IssueStep.agent
    {kernel : Kernel}
    {blockId : Nat}
    {warps after : List Warp}
    {index : Nat}
    {warp : Warp}
    {run : PathRun}
    {memory memory' : MemorySystem}
    (step : IssueStep kernel warps index warp memory after memory')
    (inBlock : warp.blockId? = some blockId)
    (ready : warp.state = .ready)
    (isAt : warp.IsAt run) :
    AgentStep kernel blockId warps index warp run memory after memory' := by
  have running := running_of_ready ready isAt
  have pc : run.paths.current.pc = warp.warpPc := by
    rw [← isAt.paths]
    rfl
  have fetches
      {inst : Instruction}
      (fetched : kernel.fetch? warp.warpPc = some inst) :
      kernel.fetch? run.paths.current.pc = some inst := by
    rw [pc, fetched]
  cases step with
  | pastEnd outside =>
      have proceeds :=
        @proceeds_pastEnd kernel warp run memory ready isAt outside
      exact
        .goesOn proceeds.accesses proceeds.effect proceeds.isAt
          proceeds.notWaiting
  | executed fetched ran notBarrier =>
      have proceeds :=
        proceeds_executed ready isAt fetched ran notBarrier
      exact
        .goesOn proceeds.accesses proceeds.effect proceeds.isAt
          proceeds.notWaiting
  | waits fetched ran barrier otherRuns =>
      rename_i inst result executed
      obtain ⟨stops, effect, arrives⟩ :=
        barrier_arrive isAt running (fetches fetched) barrier ran
      have facts := InstructionExecutor.execute_ok ran
      have block : executed.blockId?.getD 0 = blockId := by
        rw [Warp.blockId?_of_identity facts.shell.identity, inBlock]
        rfl
      rw [block] at otherRuns
      have waiting :
          (settle kernel result executed.setStalledAtBarrier).state =
            .stalledAtBarrier :=
        settle_barrier (facts.barrier.mpr barrier) (Or.inr rfl)
      refine
        .waits ⟨inst, fetches fetched, barrier⟩ stops effect
          (fun next arrived => ?_) waiting otherRuns
      obtain ⟨rfl, goesOn⟩ := arrives next arrived
      refine ⟨settle_paths kernel result _, ?_⟩
      rw [waiting, goesOn]
      exact iff_of_false nofun nofun
  | released cycle fetched ran barrier othersWait =>
      rename_i inst result executed
      obtain ⟨stops, effect, arrives⟩ :=
        barrier_arrive isAt running (fetches fetched) barrier ran
      have facts := InstructionExecutor.execute_ok ran
      have sameBlock : executed.blockId? = some blockId :=
        (Warp.blockId?_of_identity facts.shell.identity).trans inBlock
      have block : executed.blockId?.getD 0 = blockId := by
        rw [sameBlock]
        rfl
      rw [block] at othersWait ⊢
      refine
        .released cycle ⟨inst, fetches fetched, barrier⟩ stops effect
          (fun next arrived => ?_) othersWait
      obtain ⟨rfl, goesOn⟩ := arrives next arrived
      let freed := executed.setStalledAtBarrier.releaseFrom blockId cycle
      have freedPaths : freed.paths = executed.paths :=
        (releaseFrom_core blockId cycle executed.setStalledAtBarrier).paths
      have freedState : freed.state = .ready :=
        Warp.releaseFrom_waiting sameBlock rfl
      have notEnded : ¬ Ended kernel freed := by
        rw [← ended_iff, freedPaths, Bool.not_eq_true]
        exact goesOn
      have state : (settle kernel result freed).state = .ready := by
        rw [settle_barrier (facts.barrier.mpr barrier) (Or.inl notEnded),
          freedState]
      refine ⟨⟨?_, ?_⟩, state⟩
      · rw [settle_paths, freedPaths]
        rfl
      · rw [state, goesOn]
        exact iff_of_false nofun nofun

end SM

end SimSm
