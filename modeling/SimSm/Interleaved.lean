import SimSm.Library.Agreement
import SimSm.RaceFreedom

namespace SimSm

/-!
# Runs without barriers are interleavings

As long as the warps of a kernel without barriers keep to global memory, a run of
the GPU is nothing but their interleaving: multiprocessors, caches, stalls, the
policy and the order in which blocks are dispatched decide who steps next, and
nothing else.
-/

open Interleaving Outcome GridState

namespace Grid

/-- The warps of a block are where its agents are. -/
def Placed
    (here : Nat × Nat → PathRun)
    (blockId : Nat)
    (warps : List Warp) :
    Prop :=
  ∀ (position : Nat) (warp : Warp),
    warps[position]? = some warp →
    Warp.IsAt warp (here (blockId, position))

/-- Blocks that have not started are where their agents start. -/
theorem placed_start
    {grid : Grid}
    (distinct : (grid.blocks.map ThreadBlock.blockId).Nodup)
    (unstarted : grid.Unstarted)
    {block : ThreadBlock}
    (member : block ∈ grid.blocks) :
    Placed grid.startOf block.blockId block.warps :=
  fun _ _ found => isAt_start distinct unstarted member found

/-- Every warp of a grid stands where its agent is. -/
structure Stands
    (grid : Grid)
    (here : Nat × Nat → PathRun)
    (state : GridState) : Prop where
  outside : ∀ name, name ∉ grid.names → (here name).completed = true
  pending :
    ∀ block ∈ grid.blocks,
      state.stage block.blockId = .pending →
      Placed here block.blockId block.warps
  resident :
    ∀ blockId smId warps,
      state.stage blockId = .resident smId warps →
      Placed here blockId warps ∧
        ∃ block ∈ grid.blocks,
          block.blockId = blockId ∧ warps.length = block.warps.length
  retired :
    ∀ block ∈ grid.blocks,
      ∀ smId,
        state.stage block.blockId = .retired smId →
        ∀ position < block.warps.length,
          (here (block.blockId, position)).completed = true

section Stands

variable {grid : Grid}
variable {kernel : Kernel}
variable {numSms : Nat}
variable {here : Nat × Nat → PathRun}
variable {before after : GridState}

/-- The agents of other blocks do not notice that one agent moves. -/
theorem Placed.elsewhere
    {blockId other position : Nat}
    {warps : List Warp}
    {run : PathRun}
    (isOther : other ≠ blockId)
    (placed : Placed here other warps) :
    Placed (Function.update here (blockId, position) run) other warps := by
  intro index warp found
  rw [Function.update_of_ne fun same => isOther (congrArg Prod.fst same)]
  exact placed index warp found

/-- The agents of a block when one of them moves. -/
theorem Placed.set
    {blockId position : Nat}
    {warps : List Warp}
    {changed : Warp}
    {run : PathRun}
    (placed : Placed here blockId warps)
    (isAt : changed.IsAt run) :
    Placed (Function.update here (blockId, position) run) blockId
      (warps.set position changed) := by
  intro index warp found
  by_cases same : index = position
  · subst same
    have written := found
    rw [List.getElem?_set_self'] at written
    obtain ⟨_, _, rfl⟩ := Option.map_eq_some_iff.mp written
    rw [Function.update_self]
    exact isAt
  · rw [List.getElem?_set_ne (Ne.symm same)] at found
    rw [Function.update_of_ne fun equal => same (congrArg Prod.snd equal)]
    exact placed index warp found

/-- Blocks that move to other stages while nobody executes. -/
theorem Stands.restage
    (stands : grid.Stands here before)
    {stage : Nat → BlockStage}
    (pending :
      ∀ block ∈ grid.blocks,
        stage block.blockId = .pending →
        Placed here block.blockId block.warps)
    (resident :
      ∀ blockId smId warps,
        stage blockId = .resident smId warps →
        Placed here blockId warps ∧
          ∃ block ∈ grid.blocks,
            block.blockId = blockId ∧
              warps.length = block.warps.length)
    (retired :
      ∀ block ∈ grid.blocks,
        ∀ smId,
          stage block.blockId = .retired smId →
          ∀ position < block.warps.length,
            (here (block.blockId, position)).completed = true) :
    grid.Stands here { before with stage := stage } where
  outside := stands.outside
  pending := pending
  resident := resident
  retired := retired

/-- A block that is dispatched is where it waited. -/
theorem Stands.dispatch
    (stands : grid.Stands here before)
    {block : ThreadBlock}
    {smId : Nat}
    (member : block ∈ grid.blocks)
    (isPending : before.stage block.blockId = .pending) :
    grid.Stands here
      (before.setStage block.blockId (.resident smId block.warps)) := by
  refine stands.restage ?_ ?_ ?_
  · intro other otherMember otherPending
    by_cases same : other.blockId = block.blockId
    · rw [same, Function.update_self] at otherPending
      cases otherPending
    · rw [Function.update_of_ne same] at otherPending
      exact stands.pending other otherMember otherPending
  · intro other otherSm otherWarps otherResident
    by_cases same : other = block.blockId
    · rw [same, Function.update_self] at otherResident
      cases otherResident
      rw [same]
      exact
        ⟨stands.pending block member isPending, block, member, rfl, rfl⟩
    · rw [Function.update_of_ne same] at otherResident
      exact stands.resident other otherSm otherWarps otherResident
  · intro other otherMember otherSm otherRetired
    by_cases same : other.blockId = block.blockId
    · rw [same, Function.update_self] at otherRetired
      cases otherRetired
    · rw [Function.update_of_ne same] at otherRetired
      exact stands.retired other otherMember otherSm otherRetired

/-- A block that is retired has completed. -/
theorem Stands.retire
    (wellFormed : grid.WellFormed)
    (stands : grid.Stands here before)
    {blockId smId : Nat}
    {warps : List Warp}
    (isResident : before.stage blockId = .resident smId warps)
    (completed : ∀ warp ∈ warps, warp.state = .completed) :
    grid.Stands here
      (before.setStage blockId (.retired smId)) := by
  obtain ⟨placed, block, member, sameId, sameLength⟩ :=
    stands.resident blockId smId warps isResident
  refine stands.restage ?_ ?_ ?_
  · intro other otherMember otherPending
    by_cases same : other.blockId = blockId
    · rw [same, Function.update_self] at otherPending
      cases otherPending
    · rw [Function.update_of_ne same] at otherPending
      exact stands.pending other otherMember otherPending
  · intro other otherSm otherWarps otherResident
    by_cases same : other = blockId
    · rw [same, Function.update_self] at otherResident
      cases otherResident
    · rw [Function.update_of_ne same] at otherResident
      exact stands.resident other otherSm otherWarps otherResident
  · intro other otherMember otherSm otherRetired position inside
    by_cases same : other.blockId = blockId
    · have isBlock : other = block :=
        List.inj_on_of_nodup_map wellFormed.distinct otherMember member
          (same.trans sameId.symm)
      subst isBlock
      rw [← sameLength] at inside
      have found := List.getElem?_eq_getElem inside
      rw [same]
      exact
        (placed position _ found).completed.mp
          (completed _ (List.getElem_mem inside))
    · rw [Function.update_of_ne same] at otherRetired
      exact
        stands.retired other otherMember otherSm otherRetired position inside

/-- Time that passes leaves every agent where it is. -/
theorem Stands.wait
    (stands : grid.Stands here before)
    {stage : Nat → BlockStage}
    (waits : ∀ blockId, (before.stage blockId).Waits (stage blockId)) :
    grid.Stands here { before with stage := stage } := by
  refine stands.restage ?_ ?_ ?_
  · intro block member isPending
    have waited := waits block.blockId
    rw [isPending] at waited
    generalize earlier : before.stage block.blockId = stageBefore at waited
    cases waited
    exact stands.pending block member earlier
  · intro blockId smId warps isResident
    have waited := waits blockId
    rw [isResident] at waited
    generalize earlier : before.stage blockId = stageBefore at waited
    cases waited with
    | resident waited =>
        obtain ⟨placed, block, member, sameId, sameLength⟩ :=
          stands.resident blockId smId _ earlier
        refine
          ⟨fun position warp found => ?_, block, member, sameId,
            waited.length_eq.symm.trans sameLength⟩
        obtain ⟨former, foundFormer, hasWaited⟩ :=
          Pointwise.origin waited found
        exact (placed position former foundFormer).waited hasWaited
  · intro block member smId isRetired
    have waited := waits block.blockId
    rw [isRetired] at waited
    generalize earlier : before.stage block.blockId = stageBefore at waited
    cases waited
    exact stands.retired block member smId earlier

/-- When every block is retired, every agent has completed. -/
theorem Stands.completed
    (stands : grid.Stands here after)
    (allRetired :
      ∀ block ∈ grid.blocks,
        ∃ smId, after.stage block.blockId = .retired smId)
    (name : Nat × Nat) :
    (here name).completed = true := by
  by_cases isName : name ∈ grid.names
  · rw [names, List.mem_toFinset, List.mem_flatMap] at isName
    obtain ⟨block, member, isWarp⟩ := isName
    obtain ⟨position, inside, rfl⟩ := List.mem_map.mp isWarp
    obtain ⟨smId, isRetired⟩ := allRetired block member
    exact
      stands.retired block member smId isRetired position
        (List.mem_range.mp inside)
  · exact stands.outside name isName

/-- The agents stand where they stood, but for one of a resident block. -/
theorem Stands.move
    (stands : grid.Stands here before)
    {blockId smId position : Nat}
    {warps : List Warp}
    {warp changed : Warp}
    {run : PathRun}
    (isResident : before.stage blockId = .resident smId warps)
    (found : warps[position]? = some warp)
    (isAt : changed.IsAt run)
    (shared : Nat → SharedMemory)
    (globalMemory : GlobalMemory) :
    grid.Stands (Function.update here (blockId, position) run)
      { stage :=
          Function.update before.stage blockId
            (.resident smId (warps.set position changed))
        shared := shared
        globalMemory := globalMemory } := by
  obtain ⟨placed, block, member, sameId, sameLength⟩ :=
    stands.resident blockId smId warps isResident
  have isName : (blockId, position) ∈ grid.names := by
    rw [← sameId]
    apply mem_names member
    rw [← sameLength]
    exact (List.getElem?_eq_some_iff.mp found).1
  refine ⟨?_, ?_, ?_, ?_⟩
  · intro name isOutside
    rw [Function.update_of_ne]
    · exact stands.outside name isOutside
    · rintro rfl
      exact isOutside isName
  · intro other otherMember isPending
    have isOther : other.blockId ≠ blockId := by
      intro same
      dsimp only at isPending
      rw [same, Function.update_self] at isPending
      cases isPending
    dsimp only at isPending
    rw [Function.update_of_ne isOther] at isPending
    exact (stands.pending other otherMember isPending).elsewhere isOther
  · intro other otherSm otherWarps otherResident
    dsimp only at otherResident
    by_cases same : other = blockId
    · subst same
      rw [Function.update_self] at otherResident
      cases otherResident
      refine ⟨placed.set isAt, block, member, sameId, ?_⟩
      rw [List.length_set, sameLength]
    · rw [Function.update_of_ne same] at otherResident
      obtain ⟨otherPlaced, isBlock⟩ :=
        stands.resident other otherSm otherWarps otherResident
      exact ⟨otherPlaced.elsewhere same, isBlock⟩
  · intro other otherMember otherSm isRetired index inside
    dsimp only at isRetired
    have isOther : other.blockId ≠ blockId := by
      intro same
      rw [same, Function.update_self] at isRetired
      cases isRetired
    rw [Function.update_of_ne isOther] at isRetired
    rw [Function.update_of_ne fun same => isOther (congrArg Prod.fst same)]
    exact stands.retired other otherMember otherSm isRetired index inside

/-- A warp that issues moves its agent. -/
theorem Stands.issue
    (noBarrier : kernel.NoBarrier)
    (stands : grid.Stands here before)
    {blockId smId position : Nat}
    {warps changed : List Warp}
    {warp : Warp}
    {memory memory' : MemorySystem}
    (isResident : before.stage blockId = .resident smId warps)
    (found : warps[position]? = some warp)
    (ready : warp.state = .ready)
    (issued : SM.IssueStep kernel warps position warp memory changed memory') :
    ∃ performed,
      kernel.agent.accesses (here (blockId, position)) = some performed ∧
        MemoryEffect performed memory memory' ∧
        grid.Stands
          (Function.update here (blockId, position)
            (kernel.agent.next (here (blockId, position)) memory.view))
          { stage :=
              Function.update before.stage blockId (.resident smId changed)
            shared :=
              Function.update before.shared smId memory'.sharedMemory
            globalMemory := memory'.globalMemory } := by
  obtain ⟨placed, _⟩ := stands.resident blockId smId warps isResident
  have isAt : warp.IsAt (here (blockId, position)) :=
    placed position warp found
  obtain ⟨performed, written, rfl, proceeds⟩ :=
    issued.proceeds noBarrier ready isAt
  exact
    ⟨performed, proceeds.accesses, proceeds.effect,
      stands.move isResident found proceeds.isAt _ _⟩

end Stands

/-- An agent is about to leave global memory. -/
def Leaving (kernel : Kernel) (here : Nat × Nat → PathRun) : Prop :=
  ∃ name performed access,
    kernel.agent.accesses (here name) = some performed ∧
      access ∈ performed ∧ ¬ IsGlobal access.address

/--
The warps stand where interleaved agents do and global memory is theirs, or an
agent among them is about to leave global memory.
-/
def Interleaved
    (grid : Grid)
    (kernel : Kernel)
    (initial : GlobalMemory)
    (state : GridState) : Prop :=
  ∃ here memory,
    Interleaves kernel.agent grid.startOf initial.data here memory ∧
      (grid.Stands here state ∧ state.globalMemory.data = memory ∧
          state.globalMemory.size = initial.size ∨
        Leaving kernel here)

section Interleaved

variable {grid : Grid}
variable {kernel : Kernel}
variable {numSms : Nat}
variable {initial : GlobalMemory}
variable {before after : GridState}

/-- Accesses to global memory happen to global memory as a warp sees it. -/
theorem effect_data
    {performed : List (Access Nat Word)}
    {memory memory' : MemorySystem}
    (effect : MemoryEffect performed memory memory')
    (inGlobal : ∀ access ∈ performed, IsGlobal access.address) :
    memory'.globalMemory.data =
      applyAll performed memory.globalMemory.data := by
  funext address
  cases isShared : MemorySystem.isShared address with
  | false =>
      have isGlobal : IsGlobal address := isShared
      calc
        memory'.globalMemory.data address = memory'.view address :=
          (view_of_global isGlobal).symm
        _ = applyAll performed memory.view address := by rw [effect.view]
        _ = applyAll performed memory.globalMemory.data address :=
          applyAll_congr (view_of_global isGlobal)
  | true =>
      rw [effect.hidden address isShared, applyAll_of_loads]
      intro access member same
      have isGlobal := inGlobal access member
      rw [same, IsGlobal, isShared] at isGlobal
      cases isGlobal

/-- A step of the grid machine interleaves one more step of an agent. -/
theorem Interleaved.step
    (wellFormed : grid.WellFormed)
    (noBarrier : kernel.NoBarrier)
    (interleaved : grid.Interleaved kernel initial before)
    (step : Step kernel grid numSms before after) :
    grid.Interleaved kernel initial after := by
  obtain ⟨here, memory, sofar, ⟨stands, data, size⟩ | leaving⟩ := interleaved
  case inr => exact ⟨here, memory, sofar, .inr leaving⟩
  cases step with
  | dispatch member isPending _ =>
      exact
        ⟨here, memory, sofar,
          .inl ⟨stands.dispatch member isPending, data, size⟩⟩
  | retire isResident completed =>
      exact
        ⟨here, memory, sofar,
          .inl
            ⟨stands.retire wellFormed isResident completed, data, size⟩⟩
  | wait waits =>
      exact ⟨here, memory, sofar, .inl ⟨stands.wait waits, data, size⟩⟩
  | issue isResident ofBlock found ready sharedBefore globalBefore issued =>
      rename_i blockId smId position warps changed warp system system'
      obtain ⟨performed, accesses, effect, standsNext⟩ :=
        stands.issue noBarrier isResident found ready issued
      by_cases inGlobal : ∀ access ∈ performed, IsGlobal access.address
      case neg =>
        obtain ⟨access, member, outside⟩ := not_forall₂.mp inGlobal
        exact
          ⟨here, memory, sofar,
            .inr ⟨_, performed, access, accesses, member, outside⟩⟩
      have sameNext :
          kernel.agent.next (here (blockId, position)) system.view =
            kernel.agent.next (here (blockId, position)) memory := by
        refine kernel.agent.consults accesses fun address member => ?_
        have isGlobal : IsGlobal address := inGlobal _ member
        rw [view_of_global isGlobal, globalBefore, data]
      rw [sameNext] at standsNext
      refine ⟨_, _, sofar.step accesses, .inl ⟨standsNext, ?_, ?_⟩⟩
      · rw [← data, ← globalBefore]
        exact effect_data effect inGlobal
      · rw [← size, ← globalBefore]
        exact effect.size

/-- When all blocks have retired, the agents are through. -/
theorem Interleaved.ends
    (interleaved : grid.Interleaved kernel initial after)
    (retired :
      ∀ block ∈ grid.blocks,
        ∃ smId, after.stage block.blockId = .retired smId) :
    ∃ here memory,
      Interleaves kernel.agent grid.startOf initial.data here memory ∧
        ((∀ name, kernel.agent.accesses (here name) = none) ∧
            after.globalMemory = ⟨initial.size, memory⟩ ∨
          Leaving kernel here) := by
  obtain ⟨here, memory, sofar, ⟨stands, data, size⟩ | leaving⟩ := interleaved
  · refine ⟨here, memory, sofar, .inl ⟨fun name => ?_, ?_⟩⟩
    · exact completed_stops (stands.completed retired name)
    · rw [← data, ← size]
  · exact ⟨here, memory, sofar, .inr leaving⟩

/-- No step resizes global memory. -/
theorem step_size
    (step : Step kernel grid numSms before after) :
    after.globalMemory.size = before.globalMemory.size := by
  cases step with
  | dispatch => rfl
  | retire => rfl
  | wait => rfl
  | issue _ _ _ _ _ globalBefore issued =>
      rw [← globalBefore]
      cases issued with
      | pastEnd => rfl
      | executed _ ran =>
          exact (InstructionExecutor.execute_memory ran).2.size
      | waits _ ran =>
          exact (InstructionExecutor.execute_memory ran).2.size
      | released _ _ ran =>
          exact (InstructionExecutor.execute_memory ran).2.size

end Interleaved

end Grid

namespace GPU

variable {σ : Type}

/-- Steps of the grid machine from a launch on interleave steps of agents. -/
theorem interleaved_of_steps
    {grid : Grid}
    (wellFormed : grid.WellFormed)
    (unstarted : grid.Unstarted)
    {kernel : Kernel}
    (noBarrier : kernel.NoBarrier)
    {gpu : GPU σ}
    {numSms : Nat}
    {final : GridState}
    (steps : Steps kernel grid numSms gpu.gridState final) :
    grid.Interleaved kernel gpu.globalMemory final := by
  have started : grid.Interleaved kernel gpu.globalMemory gpu.gridState := by
    refine ⟨grid.startOf, _, .start, .inl ⟨⟨?_, ?_, ?_, ?_⟩, rfl, rfl⟩⟩
    · exact fun _ isOutside => Grid.startOf_outside isOutside
    · exact fun _ member _ => Grid.placed_start wellFormed.distinct unstarted member
    · intro _ _ _ isResident
      cases isResident
    · intro _ _ _ isRetired
      cases isRetired
  exact
    Steps.invariant
      (fun step interleaved => interleaved.step wellFormed noBarrier step)
      steps started

/-- No run resizes global memory. -/
theorem launchAndRun_size
    [WarpScheduler σ]
    [LawfulWarpScheduler σ]
    {grid : Grid}
    (wellFormed : grid.WellFormed)
    {kernel : Kernel}
    {gpu after : GPU σ}
    {config : SystemConfig}
    {req : KernelResourceRequirements}
    {fuel : Nat}
    (ran : gpu.launchAndRun grid config req kernel fuel = some (.ok after)) :
    after.globalMemory.size = gpu.globalMemory.size := by
  obtain ⟨final, steps, sameFinal, _⟩ := gpu.launchAndRun_steps wellFormed ran
  rw [← sameFinal]
  exact
    Steps.invariant (fun step size => (Grid.step_size step).trans size) steps
      rfl

/--
Every run of a kernel without barriers is an interleaving of the warps of the
grid, as sequential agents that share one memory: global memory ends as some
interleaving of complete runs of the agents leaves it, unless an interleaving
gets to where an agent is about to leave global memory.
-/
theorem run_interleaves
    [WarpScheduler σ]
    [LawfulWarpScheduler σ]
    {grid : Grid}
    (wellFormed : grid.WellFormed)
    (unstarted : grid.Unstarted)
    {kernel : Kernel}
    (noBarrier : kernel.NoBarrier)
    {gpu after : GPU σ}
    (nonempty : gpu.sms ≠ [])
    {config : SystemConfig}
    {req : KernelResourceRequirements}
    {fuel : Nat}
    (ran : gpu.launchAndRun grid config req kernel fuel = some (.ok after)) :
    ∃ here memory,
      Interleaves kernel.agent grid.startOf gpu.globalMemory.data here memory ∧
        ((∀ name, kernel.agent.accesses (here name) = none) ∧
            after.globalMemory = ⟨gpu.globalMemory.size, memory⟩ ∨
          Grid.Leaving kernel here) := by
  obtain ⟨final, steps, sameFinal, retires⟩ :=
    gpu.launchAndRun_steps wellFormed ran
  rw [← sameFinal]
  exact
    (interleaved_of_steps wellFormed unstarted noBarrier steps).ends
      (retires nonempty unstarted)

/-- The interleaving of a run with room for one block at a time. -/
theorem run_interleaves_one_at_a_time :
    ∃ after here memory,
      (single narrowConfig).launchAndRun ⟨[.narrow 4 1, .narrow 2 1]⟩
            narrowConfig ⟨32, 0⟩ addFive 20 =
          some (.ok after) ∧
        Interleaves addFive.agent
          (Grid.startOf ⟨[.narrow 4 1, .narrow 2 1]⟩)
          (single narrowConfig).globalMemory.data here memory ∧
        ((∀ name, addFive.agent.accesses (here name) = none) ∧
            after.globalMemory =
              ⟨(single narrowConfig).globalMemory.size, memory⟩ ∨
          Grid.Leaving addFive here) := by
  obtain ⟨after, ran⟩ :
      ∃ after,
        (single narrowConfig).launchAndRun ⟨[.narrow 4 1, .narrow 2 1]⟩
            narrowConfig ⟨32, 0⟩ addFive 20 =
          some (.ok after) := by
    refine returns_of_any ?_
    decide +kernel
  have unstarted : Grid.Unstarted ⟨[.narrow 4 1, .narrow 2 1]⟩ := by
    unfold Grid.Unstarted
    decide
  obtain ⟨here, memory, interleaved, ending⟩ :=
    run_interleaves (narrow_wellFormed [4, 2] (by decide)) unstarted
      addFive_noBarrier (List.cons_ne_nil _ _) ran
  exact ⟨after, here, memory, ran, interleaved, ending⟩

end GPU

end SimSm
