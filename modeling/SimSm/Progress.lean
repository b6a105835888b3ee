import SimSm.Stranding

namespace SimSm

/-!
# Scheduling straight-line barrier kernels

In a kernel without branches every warp executes the same barriers, so no block
is ever stranded and some warp is ready until all have completed.  Whether that
warp is selected depends on the policy alone.
-/

open InstructionExecutor

/-- Arithmetic, moves, comparisons and barriers. -/
def Opcode.isStraight : Opcode → Bool
  | .add | .sub | .mul | .mov | .cmp | .barrier => true
  | _ => false

namespace Kernel

/-- Every instruction is straight. -/
def StraightLine (kernel : Kernel) : Prop :=
  ∀ inst ∈ kernel.instructions, inst.opcode.isStraight = true

instance (kernel : Kernel) : Decidable kernel.StraightLine :=
  inferInstanceAs
    (Decidable
      (∀ inst ∈ kernel.instructions, inst.opcode.isStraight = true))

/-- The number of barriers before a pc. -/
def barriersBefore (kernel : Kernel) (pc : Nat) : Nat :=
  (kernel.instructions.take pc).countP fun inst =>
    inst.opcode == .barrier

/-- Passing one instruction passes its barrier, if it is one. -/
theorem barriersBefore_succ
    {kernel : Kernel}
    {pc : Nat}
    {inst : Instruction}
    (fetched : kernel.fetch? pc = some inst) :
    kernel.barriersBefore (pc + 1) =
      kernel.barriersBefore pc + (inst.opcode == .barrier).toNat := by
  have split :
      kernel.instructions.take (pc + 1) =
        kernel.instructions.take pc ++ [inst] := by
    rw [List.take_add_one]
    congr 1
    exact congrArg Option.toList fetched
  rw [barriersBefore, split, List.countP_append, barriersBefore,
    List.countP_singleton]
  cases inst.opcode == .barrier <;> rfl

/-- Later pcs have passed at least as many barriers. -/
theorem barriersBefore_mono
    {kernel : Kernel}
    {earlier later : Nat}
    (order : earlier ≤ later) :
    kernel.barriersBefore earlier ≤ kernel.barriersBefore later :=
  (List.take_sublist_take_left order).countP_le

/-- A straight instruction that is no barrier runs a lane loop. -/
theorem StraightLine.threadBody?
    {kernel : Kernel}
    {pc : Nat}
    {inst : Instruction}
    (straight : kernel.StraightLine)
    (fetched : kernel.fetch? pc = some inst)
    (notBarrier : inst.opcode ≠ .barrier) :
    ∃ body, threadBody? inst = some body := by
  have isStraight := straight inst (List.mem_of_getElem? fetched)
  cases opcode : inst.opcode <;>
    simp_all [Opcode.isStraight, InstructionExecutor.threadBody?]

end Kernel

/-- A multiprocessor that is not completed holds an unfinished warp. -/
theorem SM.exists_uncompleted
    {σ : Type}
    {sm : SM σ}
    (uncompleted : sm.isCompleted = false) :
    ∃ warp ∈ sm.warps, warp.state ≠ .completed := by
  unfold SM.isCompleted at uncompleted
  split at uncompleted
  · cases uncompleted
  · simpa using uncompleted

namespace Barrier

variable {σ : Type}

/-- A warp of a straight-line run: its pc has passed its counted barriers. -/
structure InLine
    (kernel : Kernel)
    (arrivals : Nat)
    (warp : Warp) : Prop where
  stack : warp.simtStack = []
  inside : warp.warpPc ≤ kernel.size
  rounds : kernel.barriersBefore warp.warpPc = arrivals
  notStalled : warp.state ≠ .stalled

/-- Every warp of a multiprocessor is in line with what was counted. -/
def AllInLine (kernel : Kernel) (sm : SM σ) (tally : Tally) : Prop :=
  ∀ position warp,
    sm.warps[position]? = some warp →
    InLine kernel (tally.arrivals position) warp

/-- Being in line depends on the core and on not being stalled. -/
theorem InLine.congr
    {kernel : Kernel}
    {arrivals : Nat}
    {before after : Warp}
    (inLine : InLine kernel arrivals before)
    (core : SameCore before after)
    (notStalled : after.state ≠ .stalled) :
    InLine kernel arrivals after where
  stack := core.simtStack.trans inLine.stack
  inside := core.warpPc.le.trans inLine.inside
  rounds := by rw [core.warpPc, inLine.rounds]
  notStalled := notStalled

/-- Time stalls no warp that is in line. -/
theorem InLine.waited
    {kernel : Kernel}
    {arrivals : Nat}
    {before after : Warp}
    (inLine : InLine kernel arrivals before)
    (waited : Waited before after) :
    InLine kernel arrivals after :=
  inLine.congr waited.core
    (by rw [waited.state_eq inLine.notStalled]; exact inLine.notStalled)

/-- Settling a prompt warp keeps it in line. -/
theorem InLine.settle
    {kernel : Kernel}
    {arrivals : Nat}
    {result : ExecutionResult}
    {warp : Warp}
    (inLine : InLine kernel arrivals warp)
    (prompt : result.status = .barrierReached ∨ result.latency = 1) :
    InLine kernel arrivals (SM.settle kernel result warp) := by
  rcases SM.settle_prompt prompt inLine.stack with same | completed
  · rwa [same]
  · rw [completed]
    exact inLine.congr ⟨rfl, rfl, rfl, rfl, rfl, rfl, rfl⟩ nofun

/-- Releasing stalls no warp. -/
theorem releaseFrom_notStalled
    {blockId cycle : Nat}
    {warp : Warp}
    (notStalled : warp.state ≠ .stalled) :
    (warp.releaseFrom blockId cycle).state ≠ .stalled := by
  unfold Warp.releaseFrom Warp.setReady
  split
  · split
    · nofun
    · exact notStalled
  · exact notStalled

/-- A straight instruction falls through and keeps the SIMT stack. -/
theorem straight_falls_through
    {kernel : Kernel}
    {inst : Instruction}
    {result : ExecutionResult}
    {warp executed : Warp}
    {memory memory' : MemorySystem}
    (straight : kernel.StraightLine)
    (fetched : kernel.fetch? warp.warpPc = some inst)
    (ran :
      execute inst (warp, memory) = .ok result (executed, memory')) :
    executed.warpPc = warp.warpPc + 1 ∧
      executed.simtStack = warp.simtStack := by
  have isStraight := straight inst (List.mem_of_getElem? fetched)
  have next := Kernel.nextPc_eq (Kernel.fetch?_lt fetched)
  cases (execute_ok ran).control with
  | fallThrough _ pc _ stack => exact ⟨pc.trans next, stack⟩
  | barrier _ _ pc _ stack => exact ⟨pc.trans next, stack⟩
  | branchNone opcode | branchAll opcode | diverge opcode | ssy opcode
  | syncToken opcode | syncDeferred opcode =>
      rw [opcode] at isStraight
      cases isStraight

/-- Executing the next instruction passes it. -/
theorem InLine.executed
    {kernel : Kernel}
    {arrivals : Nat}
    {inst : Instruction}
    {result : ExecutionResult}
    {warp executed : Warp}
    {memory memory' : MemorySystem}
    (straight : kernel.StraightLine)
    (inLine : InLine kernel arrivals warp)
    (fetched : kernel.fetch? warp.warpPc = some inst)
    (ran :
      execute inst (warp, memory) = .ok result (executed, memory')) :
    InLine kernel (arrivals + (inst.opcode == .barrier).toNat)
      executed := by
  obtain ⟨pc, stack⟩ := straight_falls_through straight fetched ran
  refine ⟨stack.trans inLine.stack, ?_, ?_, ?_⟩
  · rw [pc]
    exact Kernel.fetch?_lt fetched
  · rw [pc, Kernel.barriersBefore_succ fetched, inLine.rounds]
  · rw [(execute_ok ran).shell.state]
    exact inLine.notStalled

/-- A straight instruction takes one cycle or reaches a barrier. -/
theorem straight_prompt
    {kernel : Kernel}
    {inst : Instruction}
    {result : ExecutionResult}
    {warp executed : Warp}
    {memory memory' : MemorySystem}
    (straight : kernel.StraightLine)
    (fetched : kernel.fetch? warp.warpPc = some inst)
    (ran :
      execute inst (warp, memory) = .ok result (executed, memory')) :
    result.status = .barrierReached ∨ result.latency = 1 := by
  by_cases barrier : inst.opcode = .barrier
  · exact Or.inl ((execute_ok ran).barrier.mpr barrier)
  · right
    obtain ⟨body, shape⟩ := straight.threadBody? fetched barrier
    rw [execute_of_threadBody? shape] at ran
    rw [(executeThreads_ok ran).1]

/-- Issuing a ready warp in line keeps it in line, its arrival counted. -/
theorem InLine.issued
    {kernel : Kernel}
    {arrivals index : Nat}
    {warps after : List Warp}
    {warp : Warp}
    {memory memory' : MemorySystem}
    (straight : kernel.StraightLine)
    (inLine : InLine kernel arrivals warp)
    (found : warps[index]? = some warp)
    (step : SM.IssueStep kernel warps index warp memory after memory') :
    ∃ changed, after[index]? = some changed ∧
      (AtBarrier kernel warp → InLine kernel (arrivals + 1) changed) ∧
      (¬ AtBarrier kernel warp → InLine kernel arrivals changed) := by
  have inside : index < warps.length :=
    (List.getElem?_eq_some_iff.mp found).1
  cases step with
  | pastEnd outside =>
      refine ⟨_, List.getElem?_set_self inside, ?_, fun _ => ?_⟩
      · rintro ⟨inst, fetched, _⟩
        exact
          (Nat.not_le.mpr (Kernel.fetch?_lt fetched) outside).elim
      · exact inLine.congr ⟨rfl, rfl, rfl, rfl, rfl, rfl, rfl⟩ nofun
  | executed fetched ran notBarrier =>
      rename_i inst result executed
      have passed := inLine.executed straight fetched ran
      rw [beq_eq_false_iff_ne.mpr notBarrier] at passed
      have settled :=
        passed.settle (straight_prompt straight fetched ran)
      refine
        ⟨_, List.getElem?_set_self inside, fun atBarrier => ?_,
          fun _ => settled⟩
      exact (not_atBarrier fetched notBarrier atBarrier).elim
  | waits fetched ran barrier otherRuns =>
      rename_i inst result executed
      have passed := inLine.executed straight fetched ran
      rw [barrier] at passed
      have waiting :
          InLine kernel (arrivals + 1) executed.setStalledAtBarrier :=
        passed.congr ⟨rfl, rfl, rfl, rfl, rfl, rfl, rfl⟩ nofun
      refine
        ⟨_, List.getElem?_set_self inside,
          fun _ => waiting.settle (straight_prompt straight fetched ran),
          fun elsewhere => ?_⟩
      exact (elsewhere ⟨inst, fetched, barrier⟩).elim
  | released cycle fetched ran barrier othersWait =>
      rename_i inst result executed
      have passed := inLine.executed straight fetched ran
      rw [barrier] at passed
      have waiting :
          InLine kernel (arrivals + 1) executed.setStalledAtBarrier :=
        passed.congr ⟨rfl, rfl, rfl, rfl, rfl, rfl, rfl⟩ nofun
      have released :=
        waiting.congr
          (SM.releaseFrom_core (executed.blockId?.getD 0) cycle
            executed.setStalledAtBarrier)
          (releaseFrom_notStalled nofun)
      refine
        ⟨_, List.getElem?_set_self (by rwa [List.length_map]),
          fun _ => released.settle (straight_prompt straight fetched ran),
          fun elsewhere => ?_⟩
      exact (elsewhere ⟨inst, fetched, barrier⟩).elim

section Runs

variable {kernel : Kernel}
variable {sm after : SM σ}
variable {tally : Tally}
variable {memory memory' : MemorySystem}

/-- A tick keeps all warps in line with what is counted. -/
theorem AllInLine.tick
    [WarpScheduler σ]
    (straight : kernel.StraightLine)
    (allInLine : AllInLine kernel sm tally)
    (ran : sm.tick kernel memory = .ok (after, memory')) :
    AllInLine kernel after (tally.count kernel sm after) := by
  obtain ⟨_, _, step⟩ := SM.tick_ok ran
  intro position changed foundAfter
  change
    InLine kernel
      (tally.arrivals position + (arrives kernel sm position).toNat) changed
  generalize after.warps = warps at step foundAfter
  cases step with
  | quiet nothing waited =>
      obtain ⟨before, found, related⟩ := Pointwise.origin waited foundAfter
      have none : arrives kernel sm position = false := by
        simp [arrives, nothing]
      rw [none]
      exact (allInLine position before found).waited related
  | issued selected issueStep =>
      rename_i index warp
      by_cases same : position = index
      · subst same
        obtain ⟨before, found, related⟩ := SM.issued?_waited selected
        have inLine := (allInLine position before found).waited related
        obtain ⟨settled, foundSettled, arrived, passed⟩ :=
          inLine.issued straight (SM.issued?_timed selected) issueStep
        rw [foundSettled, Option.some.injEq] at foundAfter
        subst foundAfter
        by_cases atBarrier : AtBarrier kernel warp
        · rw [arrives_of_issued selected atBarrier, beq_self_eq_true]
          exact arrived atBarrier
        · rw [not_arrives_of_issued selected atBarrier]
          exact passed atBarrier
      · have none : arrives kernel sm position = false := by
          by_cases atBarrier : AtBarrier kernel warp
          · rw [arrives_of_issued selected atBarrier]
            exact beq_eq_false_iff_ne.mpr same
          · exact not_arrives_of_issued selected atBarrier position
        rw [none]
        obtain ⟨other, foundOther, core, state⟩ :=
          issueStep.other same foundAfter
        obtain ⟨before, found, related⟩ :=
          Pointwise.origin sm.timed_waited foundOther
        have inLine := (allInLine position before found).waited related
        refine inLine.congr core ?_
        rcases state with kept | ⟨_, ready⟩
        · rw [kept]
          exact inLine.notStalled
        · rw [ready]
          exact WarpState.noConfusion

/-- A warp in line that ends the kernel has passed all of its barriers. -/
theorem InLine.barriersBefore_size
    {arrivals : Nat}
    {warp : Warp}
    (straight : kernel.StraightLine)
    (inLine : InLine kernel arrivals warp)
    (ends : EndsKernel kernel warp) :
    kernel.barriersBefore kernel.size = arrivals := by
  rcases ends with outside | ⟨inst, fetched, leaves⟩
  · rw [← Nat.le_antisymm inLine.inside outside]
    exact inLine.rounds
  · have isStraight := straight inst (List.mem_of_getElem? fetched)
    have inside := Kernel.fetch?_lt fetched
    have notBarrier : inst.opcode ≠ .barrier := fun barrier =>
      not_atBarrier_of_endsKernel (Or.inr ⟨inst, fetched, leaves⟩)
        ⟨inst, fetched, barrier⟩
    have atEnd : kernel.size ≤ nextPc warp.warpPc := by
      cases opcode : inst.opcode <;>
        simp_all [Opcode.isStraight]
    rw [Kernel.nextPc_eq inside] at atEnd
    rw [Nat.le_antisymm atEnd inside, Kernel.barriersBefore_succ fetched,
      beq_eq_false_iff_ne.mpr notBarrier, inLine.rounds]
    rfl

/-- A running warp in line is ready for the next selection. -/
theorem AllInLine.readyAt_tickStalls
    {position : Nat}
    {warp : Warp}
    (allInLine : AllInLine kernel sm tally)
    (found : sm.warps[position]? = some warp)
    (running : warp.Running) :
    ReadyAt sm.tickStalls.warps position := by
  have notStalled := (allInLine position warp found).notStalled
  obtain ⟨after, foundAfter, waited⟩ :=
    Pointwise.partner sm.tickStalls_waited found
  refine ⟨after, foundAfter, ?_⟩
  rw [waited.state_eq notStalled]
  rcases running with ⟨notWaiting, notCompleted⟩
  cases state : warp.state with
  | ready => rfl
  | stalled => exact (notStalled state).elim
  | stalledAtBarrier => exact (notWaiting state).elim
  | completed => exact (notCompleted state).elim

/-- A block in which a warp waits without being stranded has a running warp. -/
theorem exists_running
    {warps : List Warp}
    {position blockId : Nat}
    (notStranded : ¬ Stranded warps blockId)
    (inBlock : blockAt warps position = some blockId)
    (waits : stateAt warps position = some .stalledAtBarrier) :
    ∃ (index : Nat) (warp : Warp),
      warps[index]? = some warp ∧ warp.Running := by
  by_contra noneRunning
  refine notStranded ⟨⟨position, inBlock, waits⟩, fun index ofBlock => ?_⟩
  obtain ⟨warp, found, _⟩ := Option.bind_eq_some_iff.mp ofBlock
  rw [StoppedAt, stateAt, found, Option.map_some, Option.some.injEq,
    Option.some.injEq]
  by_contra stopped
  rw [not_or] at stopped
  exact noneRunning ⟨index, warp, found, stopped⟩

/-- In line and balanced, no last running warp ends while another waits. -/
theorem AllInLine.not_lastRunnerEnds
    [WarpScheduler σ]
    [LawfulWarpScheduler σ]
    {blockId : Nat}
    (straight : kernel.StraightLine)
    (allInLine : AllInLine kernel sm tally)
    (balanced :
      Rendezvous.Board.Balanced (blockAt sm.warps) (board sm tally)) :
    ¬ LastRunnerEnds kernel sm blockId := by
  rintro ⟨index, warp, selected, ofBlock, ends, _, position, notIndex,
    inBlock, waits⟩
  obtain ⟨before, found, related⟩ := SM.issued?_waited selected
  have inLine := (allInLine index before found).waited related
  obtain ⟨other, foundOther, _⟩ := Option.map_eq_some_iff.mp waits
  have indexBlock : blockAt sm.warps index = some blockId := by
    rw [blockAt, found, Option.bind_some, ← related.core.blockId?, ofBlock]
  have together :
      tally.releases index = tally.releases position :=
    balanced.together (indexBlock.trans inBlock.symm)
  have notWaiting : waitsAt sm.warps index = false := by
    rw [waitsAt, stateAt, found, Option.map_some, beq_eq_false_iff_ne]
    intro isWaiting
    have atBarrier :=
      related.atBarrier_iff.mpr (Option.some.inj isWaiting)
    rw [SM.issued?_ready selected] at atBarrier
    cases atBarrier
  have ownBalance : tally.arrivals index = tally.releases index := by
    have balance := balanced.balance index
    simpa [board, notWaiting] using balance
  have otherBalance :
      tally.arrivals position = tally.releases position + 1 := by
    have balance := balanced.balance position
    simpa [board, waitsAt, waits] using balance
  have otherInLine := allInLine position other foundOther
  have passed := @Kernel.barriersBefore_mono kernel _ _ otherInLine.inside
  rw [otherInLine.rounds, inLine.barriersBefore_size straight ends] at passed
  omega

/-! ## Runs of launched blocks -/

/--
A block as the grid builders make it: warp `j` has id `j`, and its priority is
left at zero or set to its id as an `int`.
-/
def Built (block : ThreadBlock) : Prop :=
  ∀ position warp,
    block.warps[position]? = some warp →
    ∃ threads,
      threads ≠ [] ∧
        (∀ thread ∈ threads, thread.blockId = block.blockId) ∧
        (warp = Warp.ofThreads position threads ∨
          warp =
            { Warp.ofThreads position threads with
              priority := toInt32 position })

/-- A built warp has not run. -/
theorem Built.shape
    {block : ThreadBlock}
    {warp : Warp}
    (built : Built block)
    (member : warp ∈ block.warps) :
    ∃ position threads mask priority,
      threads ≠ [] ∧
        (∀ thread ∈ threads, thread.blockId = block.blockId) ∧
        warp =
          { warpId := position
            threads := threads
            activeMask := mask
            priority := priority } := by
  obtain ⟨position, found⟩ := List.mem_iff_getElem?.mp member
  obtain ⟨threads, nonempty, ofBlock, isBuilt⟩ := built position warp found
  obtain ⟨mask, shape⟩ := Warp.ofThreads_shape position threads
  rcases isBuilt with rfl | rfl
  · exact ⟨position, threads, mask, 0, nonempty, ofBlock, shape⟩
  · exact
      ⟨position, threads, mask, toInt32 position, nonempty, ofBlock,
        by rw [shape]⟩

/-- Admission lets every block in, one after the other. -/
def AdmitsAll (config : SystemConfig) :
    SM σ → List (ThreadBlock × KernelResourceRequirements) → Prop
  | _, [] => True
  | sm, admitted :: rest =>
      sm.canAdmit admitted.1 config admitted.2 = true ∧
        AdmitsAll config (sm.allocateBlock admitted.1 admitted.2) rest

/-- Built blocks of distinct ids that a vacant multiprocessor admits. -/
structure Resident
    (config : SystemConfig)
    (vacant : SM σ)
    (blocks : List (ThreadBlock × KernelResourceRequirements)) : Prop where
  isVacant : vacant.Vacant
  built : ∀ admitted ∈ blocks, Built admitted.1
  distinct : (blocks.map fun admitted => admitted.1.blockId).Nodup
  fits : AdmitsAll config vacant blocks

/-- Built blocks can be launched. -/
theorem Resident.launch
    {config : SystemConfig}
    {vacant : SM σ}
    {blocks : List (ThreadBlock × KernelResourceRequirements)}
    (resident : Resident config vacant blocks) :
    Launch blocks where
  wellFormed := by
    intro admitted isAdmitted warp ofBlock
    obtain ⟨_, threads, _, _, nonempty, carry, rfl⟩ :=
      (resident.built admitted isAdmitted).shape ofBlock
    exact ⟨nonempty, carry⟩
  distinct := resident.distinct
  notWaiting := by
    intro admitted isAdmitted warp ofBlock
    obtain ⟨_, _, _, _, _, _, rfl⟩ :=
      (resident.built admitted isAdmitted).shape ofBlock
    nofun

/-- Built blocks start in line. -/
theorem Resident.allInLine
    {config : SystemConfig}
    {vacant : SM σ}
    {blocks : List (ThreadBlock × KernelResourceRequirements)}
    (resident : Resident config vacant blocks)
    (kernel : Kernel) :
    AllInLine kernel (admitAll vacant blocks)
      ⟨fun _ => 0, fun _ => 0⟩ := by
  intro position warp found
  have member := List.mem_of_getElem? found
  rw [admitAll_warps, resident.isVacant.warps, List.nil_append] at member
  obtain ⟨admitted, isAdmitted, ofBlock⟩ := List.mem_flatMap.mp member
  obtain ⟨_, _, _, _, _, _, rfl⟩ :=
    (resident.built admitted isAdmitted).shape ofBlock
  exact ⟨rfl, Nat.zero_le _, rfl, nofun⟩

/-- Straight-line runs stay in line. -/
theorem Ticked.allInLine
    [WarpScheduler σ]
    {start : SM σ}
    (straight : kernel.StraightLine)
    (inLine : AllInLine kernel start ⟨fun _ => 0, fun _ => 0⟩)
    (ticked : Ticked kernel start sm tally) :
    AllInLine kernel sm tally := by
  induction ticked with
  | start => exact inLine
  | tick _ ran inductionHypothesis =>
      exact inductionHypothesis.tick straight ran

variable [WarpScheduler σ] [LawfulWarpScheduler σ]

/-- Straight-line runs strand no block. -/
theorem Ticked.not_stranded
    {config : SystemConfig}
    {vacant : SM σ}
    {blocks : List (ThreadBlock × KernelResourceRequirements)}
    (straight : kernel.StraightLine)
    (resident : Resident config vacant blocks)
    (ticked : Ticked kernel (admitAll vacant blocks) sm tally)
    (blockId : Nat) :
    ¬ Stranded sm.warps blockId := by
  induction ticked with
  | start => exact resident.launch.not_stranded resident.isVacant blockId
  | tick earlier ran inductionHypothesis =>
      have haveBlocks :=
        everyWarpHasBlock_of_identities earlier.identities
          (resident.launch.everyWarpHasBlock resident.isVacant)
      have allInLine :=
        earlier.allInLine straight (resident.allInLine kernel)
      have balanced := earlier.balanced resident.isVacant resident.launch
      rw [stranded_of_tick haveBlocks inductionHypothesis ran]
      exact allInLine.not_lastRunnerEnds straight balanced

/-- Until all warps of a straight-line run are completed, one is ready. -/
theorem Ticked.exists_ready
    {config : SystemConfig}
    {vacant : SM σ}
    {blocks : List (ThreadBlock × KernelResourceRequirements)}
    (straight : kernel.StraightLine)
    (resident : Resident config vacant blocks)
    (ticked : Ticked kernel (admitAll vacant blocks) sm tally)
    (uncompleted : sm.isCompleted = false) :
    ∃ index, ReadyAt sm.tickStalls.warps index := by
  have allInLine := ticked.allInLine straight (resident.allInLine kernel)
  have haveBlocks :=
    everyWarpHasBlock_of_identities ticked.identities
      (resident.launch.everyWarpHasBlock resident.isVacant)
  obtain ⟨warp, member, notCompleted⟩ :=
    SM.exists_uncompleted uncompleted
  obtain ⟨position, found⟩ := List.mem_iff_getElem?.mp member
  by_cases waits : warp.state = .stalledAtBarrier
  · obtain ⟨blockId, ofBlock⟩ := haveBlocks warp member
    have notStranded := ticked.not_stranded straight resident blockId
    have inBlock : blockAt sm.warps position = some blockId := by
      rw [blockAt, found, Option.bind_some, ofBlock]
    have waitsAt : stateAt sm.warps position = some .stalledAtBarrier := by
      rw [stateAt, found, Option.map_some, waits]
    obtain ⟨index, other, foundOther, running⟩ :=
      exists_running notStranded inBlock waitsAt
    exact ⟨index, allInLine.readyAt_tickStalls foundOther running⟩
  · exact
      ⟨position, allInLine.readyAt_tickStalls found ⟨waits, notCompleted⟩⟩

end Runs

/-! ## Selection -/

/-- The next selection of a multiprocessor returns a ready warp. -/
def SelectsReady (sm : SM Scheduler) : Prop :=
  ∃ index,
    sm.selected? = some index ∧ ReadyAt sm.tickStalls.warps index

/-- The policy of a multiprocessor cannot see its ready warps. -/
def PolicyBlocked (sm : SM Scheduler) : Prop :=
  ∃ scheduler,
    sm.scheduler = some scheduler ∧
      scheduler.Blocked sm.tickStalls.warps

/-- With a ready warp, a selection fails exactly when the policy is blocked. -/
theorem selectsReady_iff
    {sm : SM Scheduler}
    {scheduler : Scheduler}
    {index : Nat}
    (scheduled : sm.scheduler = some scheduler)
    (ready : ReadyAt sm.tickStalls.warps index) :
    SelectsReady sm ↔ ¬ PolicyBlocked sm := by
  have bySelection :
      sm.selected? = (scheduler.selectWarp sm.tickStalls.warps).1 := by
    rw [SM.selected?, scheduled]
    rfl
  have onlyScheduler :
      PolicyBlocked sm ↔ scheduler.Blocked sm.tickStalls.warps := by
    simp [PolicyBlocked, scheduled]
  rw [onlyScheduler, ← Scheduler.selectWarp_isSome_iff ready,
    Option.isSome_iff_exists, SelectsReady, bySelection]
  exact
    exists_congr fun selected =>
      and_iff_left_of_imp Scheduler.selectWarp_ready

/-- Admission keeps the scheduler. -/
theorem admitAll_scheduler
    {σ : Type}
    (sm : SM σ)
    (blocks : List (ThreadBlock × KernelResourceRequirements)) :
    (admitAll sm blocks).scheduler = sm.scheduler := by
  unfold admitAll
  induction blocks generalizing sm with
  | nil => rfl
  | cons admitted rest inductionHypothesis =>
      rw [List.foldl_cons, inductionHypothesis,
        (SM.allocateBlock_admits sm admitted.1 admitted.2).scheduler]

section Visited

variable {kernel : Kernel}
variable {start sm : SM Scheduler}
variable {visited : List (SM Scheduler)}

/-- Ticks keep a scheduler. -/
theorem Visits.scheduled
    (visits : Visits kernel start visited sm)
    (initially : start.scheduler.isSome = true) :
    sm.scheduler.isSome = true := by
  induction visits with
  | start => exact initially
  | tick _ ran inductionHypothesis =>
      obtain ⟨_, next, _⟩ := SM.tick_ok ran
      rw [next, SM.rescheduled]
      split
      · exact inductionHypothesis
      · rw [Option.isSome_map]
        exact inductionHypothesis

/-- The ticks of a run can be counted. -/
theorem Visits.ticked
    (visits : Visits kernel start visited sm) :
    ∃ tally, Ticked kernel start sm tally := by
  induction visits with
  | start => exact ⟨_, .start⟩
  | tick _ ran inductionHypothesis =>
      obtain ⟨tally, ticked⟩ := inductionHypothesis
      exact ⟨_, ticked.tick ran⟩

/-- Every state of a run is reached by a run. -/
theorem Visits.reaches
    {state : SM Scheduler}
    (visits : Visits kernel start visited sm)
    (member : state ∈ sm :: visited) :
    ∃ earlier, Visits kernel start earlier state := by
  induction visits with
  | start =>
      rw [List.mem_singleton.mp member]
      exact ⟨[], .start⟩
  | tick before ran inductionHypothesis =>
      rcases List.mem_cons.mp member with rfl | inRest
      · exact ⟨_, before.tick ran⟩
      · exact inductionHypothesis inRest

end Visited

/--
Along a run of a straight-line barrier kernel, every selection before completion
returns a ready warp exactly when the policy is blocked in none of its states.
-/
theorem always_selects_iff
    {config : SystemConfig}
    {kernel : Kernel}
    {vacant sm : SM Scheduler}
    {blocks : List (ThreadBlock × KernelResourceRequirements)}
    {visited : List (SM Scheduler)}
    (straight : kernel.StraightLine)
    (scheduled : vacant.scheduler.isSome = true)
    (resident : Resident config vacant blocks)
    (visits : Visits kernel (admitAll vacant blocks) visited sm) :
    (∀ state ∈ sm :: visited,
        state.isCompleted = false →
        SelectsReady state) ↔
      ∀ state ∈ sm :: visited,
        state.isCompleted = false →
        ¬ PolicyBlocked state := by
  refine
    forall_congr' fun state =>
      forall_congr' fun member =>
        forall_congr' fun uncompleted => ?_
  obtain ⟨earlier, reached⟩ := visits.reaches member
  obtain ⟨tally, ticked⟩ := reached.ticked
  obtain ⟨scheduler, isScheduler⟩ :=
    Option.isSome_iff_exists.mp
      (reached.scheduled (by rwa [admitAll_scheduler]))
  obtain ⟨index, ready⟩ :=
    ticked.exists_ready straight resident uncompleted
  exact selectsReady_iff isScheduler ready

/-- A block of one-thread warps is as the grid builders make it. -/
theorem built_narrow
    (blockId numWarps : Nat) :
    Built (.narrow blockId numWarps) := by
  intro position warp found
  rw [ThreadBlock.narrow, List.getElem?_map] at found
  obtain ⟨warpId, isWarpId, rfl⟩ := Option.map_eq_some_iff.mp found
  obtain ⟨_, same⟩ := List.getElem?_eq_some_iff.mp isWarpId
  rw [List.getElem_range] at same
  subst same
  exact ⟨_, by simp, by simp [Thread.new, ThreadBlock.narrow], Or.inl rfl⟩

/-- A configuration with room for two one-thread warps. -/
def pairConfig : SystemConfig where
  numSms := 1
  warpSize := 1
  blockSize := 2
  maxThreadsPerSm := 2
  maxBlocksPerSm := 1
  maxSharedMemoryPerSm := 0
  maxRegistersPerSm := 0

/-- Two one-thread warps are resident under any scheduler. -/
theorem resident_pair
    (scheduler : Scheduler) :
    Resident pairConfig (SM.vacantWith scheduler)
      [(.narrow 4 2, ⟨0, 0⟩)] where
  isVacant := SM.vacantWith_vacant scheduler
  built := by
    intro admitted member
    rw [List.mem_singleton.mp member]
    exact built_narrow 4 2
  distinct := List.nodup_singleton _
  fits := ⟨by rfl, trivial⟩

/-- A new two-level scheduler. -/
def activeOf (activeSetSize : Nat) : Scheduler :=
  .twoLevel { activeSetSize := activeSetSize }

/-- Two active warps meet at their barrier. -/
theorem always_selects_iff_two_active :
    ∃ (visited : List (SM Scheduler)) (sm : SM Scheduler),
      sm.warps.map Warp.state = [.ready, .completed] ∧
        ((∀ state ∈ sm :: visited,
            state.isCompleted = false →
            SelectsReady state) ↔
          ∀ state ∈ sm :: visited,
            state.isCompleted = false →
            ¬ PolicyBlocked state) := by
  have computed :
      ((runTicks meetKernel 2
          (admitAll (SM.vacantWith (activeOf 2)) [(.narrow 4 2, ⟨0, 0⟩)])
          ⟨fun _ => 0, fun _ => 0⟩ (.minimal 1)).map fun reached =>
        reached.1.warps.map Warp.state) =
        some [.ready, .completed] := by
    decide +kernel
  obtain ⟨⟨sm, tally⟩, ran, states⟩ := Option.map_eq_some_iff.mp computed
  obtain ⟨visited, visits⟩ := (Ticked.start.runTicks ran).visits
  exact
    ⟨visited, sm, states,
      always_selects_iff (by decide) rfl (resident_pair _) visits⟩

/-- One active warp waits at the barrier for a warp that is never active. -/
theorem oneActive_stuck :
    ∃ sm tally,
      Ticked meetKernel
          (admitAll (SM.vacantWith (activeOf 1)) [(.narrow 4 2, ⟨0, 0⟩)])
          sm tally ∧
        sm.isCompleted = false ∧
        sm.selected? = none := by
  have computed :
      ((runTicks meetKernel 1
          (admitAll (SM.vacantWith (activeOf 1)) [(.narrow 4 2, ⟨0, 0⟩)])
          ⟨fun _ => 0, fun _ => 0⟩ (.minimal 1)).map fun reached =>
        (reached.1.isCompleted, reached.1.selected?)) =
        some (false, none) := by
    decide +kernel
  obtain ⟨⟨sm, tally⟩, ran, shape⟩ := Option.map_eq_some_iff.mp computed
  rw [Prod.mk.injEq] at shape
  exact ⟨sm, tally, Ticked.start.runTicks ran, shape⟩

/-- The two-level policy deadlocks a well-formed barrier kernel. -/
theorem twoLevel_deadlocks :
    ¬ ∀ (policy : String) (activeSetSize : Nat) (initial : Scheduler)
        (config : SystemConfig) (kernel : Kernel)
        (vacant sm : SM Scheduler)
        (blocks : List (ThreadBlock × KernelResourceRequirements))
        (visited : List (SM Scheduler)),
        1 ≤ activeSetSize →
        Scheduler.create policy activeSetSize = .ok initial →
        vacant.scheduler = some initial →
        kernel.StraightLine →
        Resident config vacant blocks →
        Visits kernel (admitAll vacant blocks) visited sm →
        sm.isCompleted = false →
        SelectsReady sm := by
  intro always
  obtain ⟨sm, tally, ticked, uncompleted, none⟩ := oneActive_stuck
  obtain ⟨visited, visits⟩ := ticked.visits
  obtain ⟨index, selected, _⟩ :=
    always "TwoLevel" 1 _ pairConfig meetKernel _ sm _ visited le_rfl rfl rfl
      (by decide) (resident_pair _) visits uncompleted
  rw [none] at selected
  cases selected

end Barrier

end SimSm
