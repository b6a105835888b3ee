import SimSm.Barrier

namespace SimSm

/-!
# Stranded blocks

A block is stranded when one of its warps waits at a barrier and all others
wait or have completed: nobody is left to release it.  The rendezvous test runs
on arrivals only, so a block is stranded exactly when its last running warp
ends the kernel instead of arriving.
-/

open InstructionExecutor

namespace Barrier

variable {σ : Type}

/-- The warp at a position waits at a barrier or has completed. -/
def StoppedAt (warps : List Warp) (position : Nat) : Prop :=
  stateAt warps position = some .stalledAtBarrier ∨
    stateAt warps position = some .completed

/-- Some warp of a block waits, and all others wait or have completed. -/
def Stranded (warps : List Warp) (blockId : Nat) : Prop :=
  (∃ position,
      blockAt warps position = some blockId ∧
        stateAt warps position = some .stalledAtBarrier) ∧
    ∀ position,
      blockAt warps position = some blockId →
      StoppedAt warps position

/--
The next tick issues the last running warp of a block, for which another warp
waits at a barrier, and the warp ends the kernel.
-/
def LastRunnerEnds [WarpScheduler σ]
    (kernel : Kernel)
    (sm : SM σ)
    (blockId : Nat) :
    Prop :=
  ∃ index warp,
    sm.issued? = some (index, warp) ∧
      warp.blockId? = some blockId ∧
      EndsKernel kernel warp ∧
      (∀ position, position ≠ index →
        blockAt sm.warps position = some blockId →
        StoppedAt sm.warps position) ∧
      ∃ position, position ≠ index ∧
        blockAt sm.warps position = some blockId ∧
        stateAt sm.warps position = some .stalledAtBarrier

/-- A warp at a barrier does not end the kernel. -/
theorem not_atBarrier_of_endsKernel
    {kernel : Kernel}
    {warp : Warp}
    (ends : EndsKernel kernel warp) :
    ¬ AtBarrier kernel warp := by
  rintro ⟨inst, fetched, opcode⟩
  rcases ends with outside | ⟨other, fetchedOther, leaves⟩
  · exact Nat.not_le.mpr (Kernel.fetch?_lt fetched) outside
  · rw [fetched, Option.some.injEq] at fetchedOther
    subst fetchedOther
    rw [opcode] at leaves
    exact leaves

/-- Two warp vectors show the same blocks, waits and completions. -/
structure SameStops (first second : List Warp) : Prop where
  blocks : ∀ position, blockAt first position = blockAt second position
  waiting :
    ∀ position,
      stateAt first position = some .stalledAtBarrier ↔
        stateAt second position = some .stalledAtBarrier
  completed :
    ∀ position,
      stateAt first position = some .completed ↔
        stateAt second position = some .completed

namespace SameStops

variable {first second : List Warp}

theorem stoppedAt
    (same : SameStops first second)
    (position : Nat) :
    StoppedAt first position ↔ StoppedAt second position :=
  or_congr (same.waiting position) (same.completed position)

theorem stranded
    (same : SameStops first second)
    (blockId : Nat) :
    Stranded first blockId ↔ Stranded second blockId := by
  unfold Stranded
  refine and_congr (exists_congr fun position => ?_)
    (forall_congr' fun position => ?_)
  · rw [same.blocks, same.waiting]
  · rw [same.blocks, same.stoppedAt]

/-- Time starts and ends no wait at a barrier and completes no warp. -/
theorem of_waited
    (waited : List.Forall₂ Waited first second) :
    SameStops first second where
  blocks :=
    blockAt_of_identities
      (Pointwise.map_eq waited fun related => related.core.identity).symm
  waiting := fun position =>
    (stateAt_of_waited waited Waited.atBarrier_iff position).symm
  completed := fun position =>
    (stateAt_of_waited waited Waited.completed_iff position).symm

end SameStops

/-- A block whose positions kept their states is stranded as before. -/
theorem stranded_congr
    {first second : List Warp}
    {blockId : Nat}
    (sameBlocks :
      ∀ position, blockAt first position = blockAt second position)
    (sameStates :
      ∀ position,
        blockAt first position = some blockId →
        stateAt first position = stateAt second position) :
    Stranded first blockId ↔ Stranded second blockId := by
  unfold Stranded StoppedAt
  refine and_congr (exists_congr fun position => ?_)
    (forall_congr' fun position => ?_)
  · rw [← sameBlocks]
    exact and_congr_right fun inBlock => by rw [sameStates position inBlock]
  · rw [← sameBlocks]
    exact forall_congr' fun inBlock => by rw [sameStates position inBlock]

/-- A running warp keeps its block from being stranded. -/
theorem not_stranded_of_running
    {warps : List Warp}
    {position blockId : Nat}
    (inBlock : blockAt warps position = some blockId)
    (running :
      stateAt warps position = some .ready ∨
        stateAt warps position = some .stalled) :
    ¬ Stranded warps blockId := by
  rintro ⟨_, allStopped⟩
  rcases allStopped position inBlock with waits | completed
  · rcases running with ready | stalled
    · simp [waits] at ready
    · simp [waits] at stalled
  · rcases running with ready | stalled
    · simp [completed] at ready
    · simp [completed] at stalled

/--
One issue from a state without stranded blocks strands a block exactly when it
completes the last running warp of a block in which another warp waits.
-/
theorem stranded_of_issue
    {kernel : Kernel}
    {warps after : List Warp}
    {index blockId : Nat}
    {warp : Warp}
    (found : warps[index]? = some warp)
    (sameBlocks :
      ∀ position, blockAt after position = blockAt warps position)
    (notStranded : ¬ Stranded warps blockId)
    (step : StateStep kernel warps index warp after) :
    Stranded after blockId ↔
      warp.blockId? = some blockId ∧ EndsKernel kernel warp ∧
        (∀ position, position ≠ index →
          blockAt warps position = some blockId →
          StoppedAt warps position) ∧
        ∃ position, position ≠ index ∧
          blockAt warps position = some blockId ∧
          stateAt warps position = some .stalledAtBarrier := by
  have indexBlock : blockAt warps index = warp.blockId? := by
    rw [blockAt, found, Option.bind_some]
  by_cases ofBlock : warp.blockId? = some blockId
  · have inBlock : blockAt after index = some blockId :=
      (sameBlocks index).trans (indexBlock.trans ofBlock)
    cases step with
    | ends elsewhere ends issued others =>
        have stopped
            {position : Nat}
            (notIndex : position ≠ index) :
            StoppedAt after position ↔ StoppedAt warps position := by
          rw [StoppedAt, StoppedAt, others position notIndex]
        constructor
        · rintro ⟨⟨position, posBlock, waits⟩, allStopped⟩
          have notIndex : position ≠ index := by
            rintro rfl
            simp [issued] at waits
          refine ⟨ofBlock, ends, ?_, position, notIndex, ?_, ?_⟩
          · intro other otherIndex otherBlock
            exact
              (stopped otherIndex).mp
                (allStopped other ((sameBlocks other).trans otherBlock))
          · rwa [← sameBlocks]
          · rwa [← others position notIndex]
        · rintro ⟨_, _, allStopped, position, notIndex, posBlock, waits⟩
          refine ⟨⟨position, ?_, ?_⟩, ?_⟩
          · rwa [sameBlocks]
          · rwa [others position notIndex]
          · intro other otherBlock
            by_cases same : other = index
            · rw [same]
              exact Or.inr issued
            · rw [sameBlocks] at otherBlock
              exact (stopped same).mpr (allStopped other same otherBlock)
    | goesOn elsewhere goesOn issued others =>
        refine iff_of_false (not_stranded_of_running inBlock issued) ?_
        rintro ⟨_, ends, _⟩
        exact goesOn ends
    | waits arrives issued others runs =>
        obtain ⟨position, notIndex, posBlock, running⟩ := runs
        rw [← others position notIndex] at running
        have posInBlock : blockAt after position = some blockId :=
          (sameBlocks position).trans (posBlock.trans ofBlock)
        refine
          iff_of_false (not_stranded_of_running posInBlock running) ?_
        rintro ⟨_, ends, _⟩
        exact not_atBarrier_of_endsKernel ends arrives
    | released arrives issued wait leave others =>
        refine iff_of_false ?_ ?_
        · rintro ⟨⟨position, posBlock, waits⟩, _⟩
          by_cases same : position = index
          · subst same
            rcases issued with ready | completed
            · simp [ready] at waits
            · simp [completed] at waits
          · rw [sameBlocks, ← ofBlock] at posBlock
            simp [leave position same posBlock] at waits
        · rintro ⟨_, ends, _⟩
          exact not_atBarrier_of_endsKernel ends arrives
  · have sameStates :
        ∀ position,
          blockAt after position = some blockId →
          stateAt after position = stateAt warps position := by
      intro position inBlock
      rw [sameBlocks] at inBlock
      have notBlock : blockAt warps position ≠ warp.blockId? := by
        rw [inBlock]
        exact Ne.symm ofBlock
      have notIndex : position ≠ index := by
        rintro rfl
        exact notBlock indexBlock
      cases step with
      | ends _ _ _ others => exact others position notIndex
      | goesOn _ _ _ others => exact others position notIndex
      | waits _ _ others _ => exact others position notIndex
      | released _ _ _ _ others => exact others position notBlock
    rw [stranded_congr sameBlocks sameStates]
    exact iff_of_false notStranded fun isBlock => ofBlock isBlock.1

/--
From a state without stranded blocks, a tick strands a block exactly when its
last running warp ends the kernel.
-/
theorem stranded_of_tick
    [WarpScheduler σ]
    [LawfulWarpScheduler σ]
    {kernel : Kernel}
    {sm after : SM σ}
    {memory memory' : MemorySystem}
    {blockId : Nat}
    (haveBlocks : EveryWarpHasBlock sm.warps)
    (notStranded : ¬ Stranded sm.warps blockId)
    (ran : sm.tick kernel memory = .ok (after, memory')) :
    Stranded after.warps blockId ↔ LastRunnerEnds kernel sm blockId := by
  have sameTimed := SameStops.of_waited sm.timed_waited
  have sameFinal := blockAt_of_identities (tick_identities ran)
  obtain ⟨_, _, step⟩ := SM.tick_ok ran
  generalize final : after.warps = warps at step sameFinal
  cases step with
  | quiet nothing waited =>
      have same := SameStops.of_waited waited
      rw [← same.stranded blockId]
      refine iff_of_false notStranded ?_
      rintro ⟨index, warp, selected, _⟩
      rw [nothing] at selected
      cases selected
  | issued selected issueStep =>
      rename_i index warp
      have foundTimed := SM.issued?_timed selected
      obtain ⟨before, found, waited⟩ := SM.issued?_waited selected
      obtain ⟨ownId, beforeBlock⟩ :=
        haveBlocks before (List.mem_of_getElem? found)
      have stateStep :=
        stateStep_of_issue foundTimed (SM.issued?_ready selected)
          (waited.core.blockId?.trans beforeBlock) issueStep
      rw [sameTimed.stranded] at notStranded
      rw [stranded_of_issue foundTimed
        (fun position =>
          (sameFinal position).trans (sameTimed.blocks position))
        notStranded stateStep]
      simp only [LastRunnerEnds, selected, Option.some.injEq,
        Prod.mk.injEq, sameTimed.blocks, sameTimed.stoppedAt,
        sameTimed.waiting]
      constructor
      · rintro ⟨ofBlock, ends, others, waits⟩
        exact ⟨index, warp, ⟨rfl, rfl⟩, ofBlock, ends, others, waits⟩
      · rintro ⟨_, _, ⟨rfl, rfl⟩, ofBlock, ends, others, waits⟩
        exact ⟨ofBlock, ends, others, waits⟩

/-! ## Runs -/

/-- A run of ticks, with the states that its ticks started from. -/
inductive Visits [WarpScheduler σ]
    (kernel : Kernel)
    (start : SM σ) :
    List (SM σ) → SM σ → Prop where
  | start :
      Visits kernel start [] start
  | tick
      {visited : List (SM σ)}
      {sm after : SM σ}
      {memory memory' : MemorySystem}
      (earlier : Visits kernel start visited sm)
      (ran : sm.tick kernel memory = .ok (after, memory')) :
      Visits kernel start (sm :: visited) after

/-- The states of a run have the blocks of its start. -/
theorem Visits.identities
    [WarpScheduler σ]
    {kernel : Kernel}
    {start sm : SM σ}
    {visited : List (SM σ)}
    (visits : Visits kernel start visited sm) :
    sm.warps.map Warp.identity = start.warps.map Warp.identity := by
  induction visits with
  | start => rfl
  | tick _ ran inductionHypothesis =>
      exact (tick_identities ran).trans inductionHypothesis

/-- At launch no block is stranded. -/
theorem Launch.not_stranded
    {vacant : SM σ}
    {blocks : List (ThreadBlock × KernelResourceRequirements)}
    (isVacant : vacant.Vacant)
    (launch : Launch blocks)
    (blockId : Nat) :
    ¬ Stranded (admitAll vacant blocks).warps blockId := by
  rintro ⟨⟨position, _, waits⟩, _⟩
  have notWaiting := launch.waitsAt isVacant position
  rw [Barrier.waitsAt, waits] at notWaiting
  cases notWaiting

/--
Along a run no block is ever stranded exactly when no tick ends the kernel for
the last running warp of a block in which another warp waits.
-/
theorem never_stranded_iff
    [WarpScheduler σ]
    [LawfulWarpScheduler σ]
    {kernel : Kernel}
    {vacant sm : SM σ}
    {blocks : List (ThreadBlock × KernelResourceRequirements)}
    {visited : List (SM σ)}
    (isVacant : vacant.Vacant)
    (launch : Launch blocks)
    (visits : Visits kernel (admitAll vacant blocks) visited sm) :
    (∀ state ∈ sm :: visited, ∀ blockId,
        ¬ Stranded state.warps blockId) ↔
      ∀ state ∈ visited, ∀ blockId,
        ¬ LastRunnerEnds kernel state blockId := by
  induction visits with
  | start =>
      simp only [List.mem_singleton, forall_eq, List.not_mem_nil,
        false_implies, implies_true, iff_true]
      exact launch.not_stranded isVacant
  | tick earlier ran inductionHypothesis =>
      have haveBlocks :=
        everyWarpHasBlock_of_identities earlier.identities
          (launch.everyWarpHasBlock isVacant)
      rw [List.forall_mem_cons, inductionHypothesis, List.forall_mem_cons]
      apply and_congr_left
      intro guarded
      have notStranded :=
        (List.forall_mem_cons.mp (inductionHypothesis.mpr guarded)).1
      exact
        forall_congr' fun blockId =>
          not_congr (stranded_of_tick haveBlocks (notStranded blockId) ran)

/-- Counted ticks are a run. -/
theorem Ticked.visits
    [WarpScheduler σ]
    {kernel : Kernel}
    {start sm : SM σ}
    {tally : Tally}
    (ticked : Ticked kernel start sm tally) :
    ∃ visited, Visits kernel start visited sm := by
  induction ticked with
  | start => exact ⟨[], .start⟩
  | tick _ ran inductionHypothesis =>
      obtain ⟨visited, visits⟩ := inductionHypothesis
      exact ⟨_, visits.tick ran⟩

/-- The equivalence for two warps that meet at a barrier. -/
theorem never_stranded_iff_two_warps :
    ∃ (visited : List (SM Scheduler)) (sm : SM Scheduler),
      sm.warps.map Warp.state = [.ready, .completed] ∧
        Visits meetKernel
          (admitAll (SM.vacantWith .greedy) [(.narrow 4 2, ⟨0, 0⟩)])
          visited sm ∧
        ((∀ state ∈ sm :: visited, ∀ blockId,
            ¬ Stranded state.warps blockId) ↔
          ∀ state ∈ visited, ∀ blockId,
            ¬ LastRunnerEnds meetKernel state blockId) := by
  obtain ⟨sm, tally, ticked, states, _⟩ := meetKernel_ticks
  obtain ⟨visited, visits⟩ := ticked.visits
  exact
    ⟨visited, sm, states, visits,
      never_stranded_iff (SM.vacantWith_vacant _)
        (launch_narrow 4 2 ⟨0, 0⟩) visits⟩

/-- A kernel in which equal registers skip the barrier at its end. -/
def skipKernel : Kernel where
  instructions :=
    [ ⟨.cmp, -1, 0, 1, 0⟩,
      ⟨.branch, -1, -1, -1, 2⟩,
      ⟨.barrier, -1, -1, -1, 0⟩ ]
  lengthFits := by decide

/-- Two one-thread warps; only the second finds its registers equal. -/
def skipBlock : ThreadBlock where
  blockId := 4
  warps :=
    [ Warp.ofThreads 0 [(Thread.new 0 4 0 0 0).seed 0 1],
      Warp.ofThreads 1 [Thread.new 1 4 1 1 0] ]

/-- The block can be launched. -/
theorem launch_skipBlock :
    Launch [(skipBlock, ⟨0, 0⟩)] where
  wellFormed := by
    intro admitted member
    rw [List.mem_singleton.mp member]
    intro warp ofBlock
    simp only [skipBlock, List.mem_cons, List.not_mem_nil, or_false]
      at ofBlock
    rcases ofBlock with rfl | rfl <;>
      simp [skipBlock, Warp.ofThreads, Warp.addThread, Thread.new,
        Thread.seed]
  distinct := List.nodup_singleton _
  notWaiting := by
    intro admitted member warp ofBlock
    rw [List.mem_singleton.mp member] at ofBlock
    simp only [skipBlock, List.mem_cons, List.not_mem_nil, or_false]
      at ofBlock
    rcases ofBlock with rfl | rfl <;>
      simp [Warp.ofThreads, Warp.addThread]

/-- Five ticks leave the first warp waiting and complete the second. -/
theorem skipKernel_ticks :
    ∃ sm tally,
      Ticked skipKernel
          (admitAll (SM.vacantWith Scheduler.greedy)
            [(skipBlock, ⟨0, 0⟩)])
          sm tally ∧
        sm.warps.map Warp.state = [.stalledAtBarrier, .completed] ∧
        sm.warps.map Warp.blockId? = [some 4, some 4] := by
  have computed :
      ((runTicks skipKernel 5
          (admitAll (SM.vacantWith Scheduler.greedy) [(skipBlock, ⟨0, 0⟩)])
          ⟨fun _ => 0, fun _ => 0⟩ (.minimal 1)).map fun reached =>
        (reached.1.warps.map Warp.state,
          reached.1.warps.map Warp.blockId?)) =
        some ([.stalledAtBarrier, .completed], [some 4, some 4]) := by
    decide +kernel
  obtain ⟨⟨sm, tally⟩, ran, shape⟩ := Option.map_eq_some_iff.mp computed
  rw [Prod.mk.injEq] at shape
  exact ⟨sm, tally, Ticked.start.runTicks ran, shape.1, shape.2⟩

/-- A malformed barrier can become a silent deadlock. -/
theorem skipKernel_strands :
    ¬ ∀ (kernel : Kernel) (vacant sm : SM Scheduler)
        (blocks : List (ThreadBlock × KernelResourceRequirements))
        (visited : List (SM Scheduler)) (blockId : Nat),
        vacant.Vacant →
        Launch blocks →
        Visits kernel (admitAll vacant blocks) visited sm →
        ¬ Stranded sm.warps blockId := by
  intro never
  obtain ⟨sm, tally, ticked, states, blocks⟩ := skipKernel_ticks
  obtain ⟨visited, visits⟩ := ticked.visits
  refine
    never _ _ _ _ _ 4 (SM.vacantWith_vacant _) launch_skipBlock visits ?_
  obtain ⟨first, rest, shape, firstState, restStates⟩ :=
    List.map_eq_cons_iff.mp states
  obtain ⟨second, others, restShape, secondState, othersStates⟩ :=
    List.map_eq_cons_iff.mp restStates
  rw [List.map_eq_nil_iff.mp othersStates] at restShape
  rw [restShape] at shape
  rw [shape] at blocks ⊢
  simp only [List.map_cons, List.map_nil, List.cons.injEq, and_true]
    at blocks
  refine ⟨⟨0, blocks.1, by rw [stateAt]; exact congrArg some firstState⟩, ?_⟩
  intro position inBlock
  rcases position with _ | _ | position
  · exact Or.inl (congrArg some firstState)
  · exact Or.inr (congrArg some secondState)
  · cases inBlock

end Barrier

end SimSm
