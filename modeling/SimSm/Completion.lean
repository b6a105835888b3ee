import SimSm.AgreeingWrites
import SimSm.SafeRuns
import SimSm.Termination

namespace SimSm

/-!
# Straight kernels run to their end

When the threads of a straight kernel agree on what they write and stay inside
global memory, a launch and a run of it neither throw nor go on for ever.
-/

open Interleaving Outcome

/-- The addresses of global memory that a memory has. -/
def InMemory (size address : Nat) : Prop :=
  IsGlobal address ∧ address < size

/-- Only instructions that fall through, with registers that exist. -/
def Kernel.WellFormed (kernel : Kernel) : Prop :=
  ∀ inst ∈ kernel.instructions,
    inst.WellFormed ∧ inst.opcode.isControl = false

instance Kernel.decidableWellFormed
    (kernel : Kernel) :
    Decidable kernel.WellFormed :=
  inferInstanceAs (Decidable (∀ inst ∈ kernel.instructions, _))

namespace Kernel.WellFormed

variable {kernel : Kernel}

/-- A well-formed instruction is no barrier. -/
theorem noBarrier
    (wellFormed : kernel.WellFormed) :
    kernel.NoBarrier := by
  intro inst member opcode
  have isWellFormed := (wellFormed inst member).1
  simp [Instruction.WellFormed, Instruction.Regular,
    Instruction.Arithmetic, Opcode.isControl, opcode] at isWellFormed

/-- Nothing jumps, so nothing jumps backwards. -/
theorem forward
    (wellFormed : kernel.WellFormed) :
    kernel.Forward := by
  intro pc _ target isTarget
  obtain ⟨inst, fetched, jumps⟩ := Option.bind_eq_some_iff.mp isTarget
  have noControl := (wellFormed inst (fetch?_mem fetched)).2
  cases opcode : inst.opcode <;>
    simp [Opcode.isJump, Opcode.isControl, opcode] at jumps noControl

end Kernel.WellFormed

namespace GPU

/-- Agents that agree and stay in memory stand before nothing that throws. -/
theorem Plans.safe
    {grid : Grid}
    {kernel : Kernel}
    {initial memory : Nat → Word}
    {target : Nat → Option Word}
    {size : Nat}
    {finish : Nat × Nat → OwnPaths}
    {log : Nat × Nat → List (Access Nat Word)}
    {stop here : Nat × Nat → PathRun}
    (plans :
      Plans grid kernel initial target (InMemory size) finish log stop)
    (wellFormed : kernel.WellFormed)
    (narrow :
      ∀ name warp,
        grid.warp? name = some warp → warp.threads.length ≤ 32)
    (interleaved :
      Interleaves kernel.agent grid.startOf initial here memory)
    (name : Nat × Nat) :
    (here name).Safe kernel size := by
  obtain ⟨done, rest, agreed⟩ :=
    interleaved.agreed plans.watches plans.stops plans.agrees
  refine
    .of_inside (fun inst member => ⟨(wellFormed inst member).1, fun sync => ?_⟩)
      (Grid.lanes_of_interleaves narrow interleaved name)
      fun performed accesses access member => ?_
  · have noControl := (wellFormed inst member).2
    simp [sync, Opcode.isControl] at noControl
  · exact
      (agreed.agrees_next plans.stops plans.agrees accesses access
        member).inScope

section Threads

variable {numElements blockSize warpSize : Nat}
variable {buildThread : Nat → Nat → Nat → Except SimError Thread}
variable {grid : Grid}

/-- A warp of a grid of elements has no more lanes than a warp may have. -/
theorem lanes_of_name
    (someThreads : 0 < blockSize)
    (positive : 0 < warpSize)
    (narrow : warpSize ≤ 32)
    (built :
      Benchmarks.buildElementGrid numElements blockSize warpSize
          buildThread =
        .ok grid)
    {name : Nat × Nat}
    {warp : Warp}
    (found : grid.warp? name = some warp) :
    warp.threads.length ≤ 32 := by
  obtain ⟨_, _, start⟩ :=
    warp_of_name someThreads positive narrow built found
  have lanes := congrArg (fun state => state.lanes.length) start
  simp only [Warp.paths, Warp.lanes, abreast, List.length_map,
    List.length_range] at lanes
  rw [lanes]
  exact (min_le_left _ _).trans narrow

/-- The blocks of a grid of elements have no more warps than threads. -/
theorem fresh_of_elements
    (someThreads : 0 < blockSize)
    (positive : 0 < warpSize)
    (narrow : warpSize ≤ 32)
    (few : blockSize ≤ 2 ^ 31)
    (ofBlock :
      ∀ block warpId lane thread,
        buildThread block warpId lane = .ok thread →
        thread.blockId = block)
    (built :
      Benchmarks.buildElementGrid numElements blockSize warpSize
          buildThread =
        .ok grid) :
    ∀ block ∈ grid.blocks,
      ∀ warp ∈ block.warps,
        warp.Newborn ∧ PriorityScheduler.lowest < warp.priority := by
  intro block member
  obtain ⟨_, blocks⟩ := Benchmarks.buildElementGrid_blocks someThreads built
  obtain ⟨length, _⟩ := (blocks block member).start positive narrow
  refine
    (Benchmarks.buildElementGrid_built positive ofBlock built block
      member).fresh ?_
  have threads :
      Benchmarks.threadsInBlock numElements blockSize block.blockId ≤
        blockSize := by
    unfold Benchmarks.threadsInBlock
    omega
  rw [length]
  refine le_trans ?_ (threads.trans few)
  unfold warpCount
  generalize
    Benchmarks.threadsInBlock numElements blockSize block.blockId = count
  cases count with
  | zero => exact (Nat.div_eq_of_lt (by omega)).le
  | succ count =>
      refine Nat.div_le_of_le_mul ?_
      rw [Nat.mul_succ]
      have atLeast := Nat.le_mul_of_pos_left count positive
      omega

/--
Threads of a straight kernel that keep to an agreement inside global memory run
to their end, when every block has room on an empty multiprocessor.
-/
theorem agreeing_threads_complete
    {kernel : Kernel}
    {transform : OwnLane → OwnLane}
    {config : SystemConfig}
    {req : KernelResourceRequirements}
    (someThreads : 0 < blockSize)
    (positive : 0 < warpSize)
    (narrow : warpSize ≤ 32)
    (few : blockSize ≤ 2 ^ 31)
    (built :
      Benchmarks.buildElementGrid numElements blockSize warpSize
          buildThread =
        .ok grid)
    (ofBlock :
      ∀ block warpId lane thread,
        buildThread block warpId lane = .ok thread →
        thread.blockId = block)
    (wellFormed : kernel.WellFormed)
    (does :
      OwnPaths.Does kernel 0 kernel.size (fun _ => True) transform)
    {gpu : GPU Scheduler}
    {target : Nat → Option Word}
    (keeps :
      ThreadsKeep numElements blockSize warpSize buildThread transform
        gpu.globalMemory.data target (InMemory gpu.globalMemory.size))
    (scheduled :
      ∀ sm ∈ gpu.sms,
        ∃ scheduler, sm.scheduler = some scheduler ∧ scheduler.Usable)
    (inUse : gpu.CachesInUse)
    (fits : ∀ block ∈ grid.blocks, SM.fitsEmpty block config req = true)
    {fuel : Nat}
    (enough : grid.iterationBound kernel config < fuel) :
    ∃ after,
      gpu.launchAndRun grid config req kernel fuel = some (.ok after) := by
  obtain ⟨gridFormed, unstarted⟩ :=
    elementGrid_wellFormed someThreads positive narrow built ofBlock
  obtain ⟨log, stop, plans⟩ :=
    plans_of_threads someThreads positive narrow built does keeps
  have narrowLanes (name : Nat × Nat) (warp : Warp)
      (found : grid.warp? name = some warp) :
      warp.threads.length ≤ 32 :=
    lanes_of_name someThreads positive narrow built found
  obtain ⟨launched, launches⟩ := launch_returns gridFormed fits gpu
  obtain ⟨outcome, ran⟩ :=
    launched_returns wellFormed.noBarrier wellFormed.forward scheduled
      (fresh_of_elements someThreads positive narrow few ofBlock built)
      launches enough
  rw [launchAndRun, launches]
  cases outcome with
  | ok after => exact ⟨after, ran⟩
  | error error =>
      exact
        (launched_throws_nothing gridFormed unstarted wellFormed.noBarrier
          inUse fits
          (fun _ _ interleaved name =>
            plans.safe wellFormed narrowLanes interleaved name)
          launches ran).elim

end Threads

/-- The schedulers of a built GPU can select. -/
theorem new_scheduled
    {config : SystemConfig}
    {rng : Nat → Nat → Nat → Nat}
    {gpu : GPU Scheduler}
    (someActive : 1 ≤ config.activeSetSize)
    (built :
      GPU.new config SchedulerFactory.createScheduler rng = .ok gpu) :
    ∀ sm ∈ gpu.sms,
      ∃ scheduler, sm.scheduler = some scheduler ∧ scheduler.Usable := by
  obtain ⟨l2Cache, _, rest⟩ := except_bind_ok.mp built
  obtain ⟨sms, smsBuilt, returned⟩ := except_bind_ok.mp rest
  cases returned
  intro sm member
  obtain ⟨smId, found⟩ := List.mem_iff_getElem?.mp member
  obtain ⟨_, _, isBuilt⟩ :=
    Pointwise.origin (except_mapM_ok.mp smsBuilt) found
  obtain ⟨empty, _, later⟩ := except_bind_ok.mp isBuilt
  obtain ⟨scheduler, created, returned⟩ := except_bind_ok.mp later
  cases returned
  refine ⟨scheduler, rfl, ?_⟩
  unfold SchedulerFactory.createScheduler Scheduler.create at created
  split_ifs at created <;> cases created
  all_goals first | exact someActive | trivial

end GPU

end SimSm
