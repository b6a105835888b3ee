import SimSm.Interleaved
import SimSm.ThreadPhases

namespace SimSm

/-!
# Threads that agree on what they write

Lanes, warps and blocks may store to one cell without harm when they store one
value, and load only cells that nobody stores to.  What each thread does alone
then determines the memory in which every run ends.
-/

open Interleaving Outcome

/-! ## One warp -/

namespace OwnPaths

variable {kernel : Kernel}
variable {target : Nat → Option Word}
variable {scope : Nat → Prop}
variable {initial : Nat → Word}
variable {before middle finish : OwnPaths}

/-- The lanes find the initial data where nobody stores. -/
def Unwritten
    (target : Nat → Option Word)
    (initial : Nat → Word)
    (own : OwnPaths) : Prop :=
  ∀ (lane : Nat) (found : OwnLane),
    own.lanes[lane]? = some found →
    ∀ address,
      target address = none → found.memory address = initial address

/-- What the lanes have touched keeps to an agreement. -/
def Keeps
    (target : Nat → Option Word)
    (scope : Nat → Prop)
    (own : OwnPaths) : Prop :=
  ∀ (lane : Nat) (found : OwnLane),
    own.lanes[lane]? = some found →
    ∀ access ∈ found.touched, Agrees target scope access

/-- Some lane has performed an access. -/
def Touched (own : OwnPaths) (access : Access Nat Word) : Prop :=
  ∃ (lane : Nat) (found : OwnLane),
    own.lanes[lane]? = some found ∧ access ∈ found.touched

/-- The lanes of an agreement kept to an agreement on the way to it. -/
theorem Keeps.of_reaches
    (reaches : Reaches kernel before finish)
    (keeps : finish.Keeps target scope) :
    before.Keeps target scope := by
  intro lane found isLane access touched
  obtain ⟨later, isLater, still⟩ := touched_of_reaches reaches isLane
  exact keeps lane later isLater access (still touched)

/-- What the active lanes touch in one instruction. -/
theorem touched_of_step
    {inst : Instruction}
    (executed : before.execute inst = some middle)
    {access : Access Nat Word} :
    middle.Touched access ↔
      before.Touched access ∨ access ∈ before.paths.accesses inst := by
  obtain ⟨next, _, rfl⟩ := Option.map_eq_some_iff.mp executed
  rw [accesses_eq inst 0, List.mem_flatMap]
  constructor
  · rintro ⟨lane, found, isLane, touched⟩
    rw [getElem?_onLanes] at isLane
    obtain ⟨former, isFormer, rfl⟩ := Option.map_eq_some_iff.mp isLane
    split at touched
    · rename_i active
      rcases List.mem_append.mp touched with earlier | now
      · exact .inl ⟨lane, former, isFormer, earlier⟩
      · refine .inr ⟨(0, lane), mem_movingLanes.mpr ?_, ?_⟩
        · exact ⟨rfl, former, isFormer, active⟩
        · rw [laneAccesses, isFormer]
          exact now
    · exact .inl ⟨lane, former, isFormer, touched⟩
  · rintro (⟨lane, found, isLane, touched⟩ | ⟨agent, moving, performed⟩)
    · refine ⟨lane, _, by rw [getElem?_onLanes, isLane]; rfl, ?_⟩
      split
      · exact List.mem_append_left _ touched
      · exact touched
    · obtain ⟨_, found, isLane, active⟩ := mem_movingLanes.mp moving
      refine ⟨agent.2, _, by rw [getElem?_onLanes, isLane]; rfl, ?_⟩
      rw [laneAccesses, isLane] at performed
      dsimp only
      rw [if_pos active]
      exact List.mem_append_right _ performed

/-- Lanes that keep to an agreement move as in a memory that never changes. -/
theorem executeWith_initial
    {inst : Instruction}
    (executed : before.execute inst = some middle)
    (unwritten : before.Unwritten target initial)
    (keeps : middle.Keeps target scope) :
    before.paths.executeWith inst initial = some middle.paths ∧
      middle.Unwritten target initial := by
  obtain ⟨next, executes, rfl⟩ := Option.map_eq_some_iff.mp executed
  have agrees
      {lane : Nat}
      {found : OwnLane}
      (isLane : before.lanes[lane]? = some found)
      (active : before.current.mask.getLsbD lane = true) :
      ∀ access ∈ (found.lane.access? inst).toList,
        Agrees target scope access := by
    intro access performed
    refine
      keeps lane (found.execute inst) ?_ access
        (List.mem_append_right _ performed)
    rw [getElem?_onLanes, isLane, Option.map_some, if_pos active]
  constructor
  · rw [PathState.executeWith, executes]
    simp only [Option.map_some, paths, Option.some.injEq, PathState.mk.injEq,
      and_true]
    apply List.ext_getElem?
    intro lane
    simp only [getElem?_onMask, List.getElem?_map, getElem?_onLanes]
    cases isLane : before.lanes[lane]? with
    | none => rfl
    | some found =>
        cases active : before.current.mask.getLsbD lane with
        | false => simp
        | true =>
            simp only [Option.map_some, if_true, Option.some.injEq,
              OwnLane.execute, LaneState.executeWith]
            split
            · rename_i isLoad
              have nothing :=
                agrees isLane active
                  (.load (found.lane.address inst.src1 inst))
                  (by simp [LaneState.access?, isLoad])
              rw [unwritten lane found isLane _ nothing.2]
            · rfl
  · intro lane found isLane address nothing
    rw [getElem?_onLanes] at isLane
    obtain ⟨former, isFormer, rfl⟩ := Option.map_eq_some_iff.mp isLane
    split
    · rename_i active
      have unstored :
          ¬ Stored (former.lane.access? inst).toList address := by
        rintro ⟨value, performed⟩
        have stores := (agrees isFormer active _ performed).2
        rw [nothing] at stores
        cases stores
      exact
        ((applyAll_agreed (agrees isFormer active) former.memory).2
            unstored).trans
          (unwritten lane former isFormer address nothing)
    · exact unwritten lane former isFormer address nothing

/--
A warp whose lanes alone keep to an agreement makes the same run as an agent in a
memory that never changes.
-/
theorem watches
    (reaches : Reaches kernel before finish)
    (settled : finish.Settled kernel)
    (unwritten : before.Unwritten target initial)
    (keeps : finish.Keeps target scope) :
    ∃ log,
      kernel.agent.Watches initial (before.run kernel) log
          (finish.run kernel) ∧
        ∀ access,
          finish.Touched access ↔ before.Touched access ∨ access ∈ log := by
  induction reaches using Relation.ReflTransGen.head_induction_on with
  | refl => exact ⟨[], .here _, fun _ => by simp⟩
  | head step rest inductionHypothesis =>
      obtain ⟨inst, fetched, notBarrier, executed⟩ := step
      obtain ⟨moved, unwrittenNext⟩ :=
        executeWith_initial executed unwritten (keeps.of_reaches rest)
      obtain ⟨log, watches, touched⟩ := inductionHypothesis unwrittenNext
      rw [← nextWith_of_step fetched moved (settled_of_reaches rest settled)]
        at watches
      refine
        ⟨_, .step (accesses_of_step fetched notBarrier executed) watches,
          fun access => ?_⟩
      rw [touched, touched_of_step executed, List.mem_append, or_assoc]

/-- A warp that has not run starts the run of its agent. -/
theorem watches_start
    (reaches : Reaches kernel before finish)
    (ended : finish.paths.ended kernel.size = true)
    (unwritten : before.Unwritten target initial)
    (keeps : finish.Keeps target scope) :
    ∃ log,
      kernel.agent.Watches initial ⟨before.paths, false⟩ log
          (finish.run kernel) ∧
        ∀ access,
          finish.Touched access ↔ before.Touched access ∨ access ∈ log := by
  have settled : finish.Settled kernel := by
    rw [PathState.ended, Bool.and_eq_true] at ended
    exact .inr (List.isEmpty_iff.mp ended.2)
  obtain ⟨log, watches, touched⟩ := watches reaches settled unwritten keeps
  rcases reaches.cases_head with rfl | ⟨_, step, _⟩
  · -- a kernel that ends where the warp starts only completes it
    have fetched : kernel.fetch? before.current.pc = none := by
      rw [PathState.ended, Bool.and_eq_true] at ended
      exact Kernel.fetch?_eq_none_iff.mpr (of_decide_eq_true ended.1)
    have completes :
        (⟨before.paths, false⟩ : PathRun).nextWith kernel initial =
          before.run kernel := by
      have fetches :
          kernel.fetch? before.paths.current.pc = none := fetched
      rw [PathRun.nextWith, fetches, run, ended]
    have accesses :
        (⟨before.paths, false⟩ : PathRun).accesses? kernel = some [] := by
      have fetches :
          kernel.fetch? before.paths.current.pc = none := fetched
      rw [PathRun.accesses?, if_neg Bool.false_ne_true, fetches]
    refine
      ⟨[] ++ [], @Agent.Watches.step _ _ _ kernel.agent _ _ _ _ _ accesses ?_,
        fun _ => by simp⟩
    change kernel.agent.Watches initial (PathRun.nextWith _ _ _) _ _
    rw [completes]
    exact .here _
  · have notEnded := step.notEnded
    rw [run] at watches notEnded
    dsimp only at notEnded
    rw [notEnded] at watches
    exact ⟨log, watches, touched⟩

end OwnPaths

/-! ## Whole grids -/

namespace GPU

variable {σ : Type}

/-- The runs that agents make alone, and what each of them touches. -/
structure Plans
    (grid : Grid)
    (kernel : Kernel)
    (initial : Nat → Word)
    (target : Nat → Option Word)
    (scope : Nat → Prop)
    (finish : Nat × Nat → OwnPaths)
    (log : Nat × Nat → List (Access Nat Word))
    (stop : Nat × Nat → PathRun) : Prop where
  watches :
    ∀ name,
      kernel.agent.Watches initial (grid.startOf name) (log name) (stop name)
  stops : ∀ name, kernel.agent.accesses (stop name) = none
  agrees : ∀ name, ∀ access ∈ log name, Agrees target scope access
  logged :
    ∀ name access,
      access ∈ log name ↔
        ∃ warp,
          grid.warp? name = some warp ∧ (finish name).Touched access

/-- Warps whose lanes alone keep to an agreement make runs as agents. -/
theorem plans_of_alone
    {grid : Grid}
    {kernel : Kernel}
    {initial : Nat → Word}
    {target : Nat → Option Word}
    {scope : Nat → Prop}
    {finish : Nat × Nat → OwnPaths}
    (reaches :
      ∀ name warp,
        grid.warp? name = some warp →
        OwnPaths.Reaches kernel (.begin warp.paths initial) (finish name))
    (ended :
      ∀ name warp,
        grid.warp? name = some warp →
        (finish name).paths.ended kernel.size = true)
    (keeps :
      ∀ name warp,
        grid.warp? name = some warp → (finish name).Keeps target scope) :
    ∃ log stop, Plans grid kernel initial target scope finish log stop := by
  have plan (name : Nat × Nat) :
      ∃ log stop,
        kernel.agent.Watches initial (grid.startOf name) log stop ∧
          kernel.agent.accesses stop = none ∧
          ∀ access,
            access ∈ log ↔
              ∃ warp,
                grid.warp? name = some warp ∧
                  (finish name).Touched access := by
    cases found : grid.warp? name with
    | none =>
        refine ⟨[], grid.startOf name, .here _, ?_, fun access => ?_⟩
        · rw [Grid.startOf, found]
          exact completed_stops rfl
        · simp
    | some warp =>
        obtain ⟨log, watches, touched⟩ :=
          OwnPaths.watches_start (reaches name warp found)
            (ended name warp found) (fun lane own isLane address _ => by
              rw [OwnPaths.begin, List.getElem?_map] at isLane
              obtain ⟨_, _, rfl⟩ := Option.map_eq_some_iff.mp isLane
              rfl)
            (keeps name warp found)
        refine ⟨log, (finish name).run kernel, ?_, ?_, fun access => ?_⟩
        · rw [Grid.startOf, found]
          rwa [OwnPaths.paths_begin] at watches
        · exact completed_stops (ended name warp found)
        · have untouched :
              ¬ (OwnPaths.begin warp.paths initial).Touched access := by
            rintro ⟨lane, own, isLane, member⟩
            rw [OwnPaths.begin, List.getElem?_map] at isLane
            obtain ⟨_, _, rfl⟩ := Option.map_eq_some_iff.mp isLane
            cases member
          rw [touched, or_iff_right untouched]
          simp
  choose log stop watches stops logged using plan
  refine ⟨log, stop, watches, stops, fun name access member => ?_, logged⟩
  obtain ⟨warp, found, lane, own, isLane, touched⟩ :=
    (logged name access).mp member
  exact keeps name warp found lane own isLane access touched

/--
When the warps of a kernel without barriers keep to an agreement, each lane with
a memory of its own, every run leaves the agreed values where some lane stores,
and everything else as it was.
-/
theorem agreeing_warps
    [WarpScheduler σ]
    [LawfulWarpScheduler σ]
    {grid : Grid}
    (wellFormed : grid.WellFormed)
    (unstarted : grid.Unstarted)
    {kernel : Kernel}
    (noBarrier : kernel.NoBarrier)
    {gpu after : GPU σ}
    {target : Nat → Option Word}
    {finish : Nat × Nat → OwnPaths}
    {log : Nat × Nat → List (Access Nat Word)}
    {stop : Nat × Nat → PathRun}
    (plans :
      Plans grid kernel gpu.globalMemory.data target IsGlobal finish log
        stop)
    (nonempty : gpu.sms ≠ [])
    {config : SystemConfig}
    {req : KernelResourceRequirements}
    {fuel : Nat}
    (ran : gpu.launchAndRun grid config req kernel fuel = some (.ok after))
    (address : Nat) :
    ((∃ name warp value,
          grid.warp? name = some warp ∧
            (finish name).Touched (.store address value)) →
        target address = some (after.globalMemory.data address)) ∧
      ((¬ ∃ name warp value,
          grid.warp? name = some warp ∧
            (finish name).Touched (.store address value)) →
        after.globalMemory.data address = gpu.globalMemory.data address) := by
  obtain ⟨watches, stops, agrees, logged⟩ := plans
  obtain ⟨final, steps, sameFinal, retires⟩ :=
    gpu.launchAndRun_steps wellFormed ran
  obtain ⟨here, memory, interleaved, ending⟩ :=
    (interleaved_of_steps wellFormed unstarted noBarrier steps).ends
      (retires nonempty unstarted)
  rw [sameFinal] at ending
  obtain ⟨done, rest, agreed⟩ := interleaved.agreed watches stops agrees
  have stored :
      (∃ name, Stored (log name) address) ↔
        ∃ name warp value,
          grid.warp? name = some warp ∧
            (finish name).Touched (.store address value) := by
    simp only [Stored, logged]
    constructor
    · rintro ⟨name, value, warp, found, touched⟩
      exact ⟨name, warp, value, found, touched⟩
    · rintro ⟨name, warp, value, found, touched⟩
      exact ⟨name, value, warp, found, touched⟩
  rcases ending with ⟨stopped, isMemory⟩ | leaving
  · rw [isMemory, ← stored]
    exact agreed.atEnd stopped address
  · obtain ⟨name, performed, access, accesses, member, outside⟩ := leaving
    exact
      (outside
        (agreed.agrees_next stops agrees accesses access member).inScope).elim

section Threads

variable {grid : Grid}
variable {kernel : Kernel}
variable {numElements blockSize warpSize : Nat}
variable {buildThread : Nat → Nat → Nat → Except SimError Thread}
variable {transform : OwnLane → OwnLane}

/-- What a thread of a grid has done alone at the end of a kernel. -/
def aloneAtEnd
    (warpSize : Nat)
    (buildThread : Nat → Nat → Nat → Except SimError Thread)
    (transform : OwnLane → OwnLane)
    (initial : Nat → Word)
    (block localId : Nat) :
    OwnLane :=
  transform
    ⟨Benchmarks.builtLane warpSize (buildThread block) localId, initial, []⟩

/-- The threads of a warp, each at the end of the kernel. -/
def warpAtEnd
    (kernel : Kernel)
    (numElements blockSize warpSize : Nat)
    (buildThread : Nat → Nat → Nat → Except SimError Thread)
    (transform : OwnLane → OwnLane)
    (initial : Nat → Word)
    (name : Nat × Nat) :
    OwnPaths :=
  ownAbreast warpSize
    (Benchmarks.threadsInBlock numElements blockSize name.1) kernel.size
    (aloneAtEnd warpSize buildThread transform initial name.1) name.2

/-- A named warp of a grid of elements is one of the warps of its block. -/
theorem warp_of_name
    (someThreads : 0 < blockSize)
    (positive : 0 < warpSize)
    (narrow : warpSize ≤ 32)
    (built :
      Benchmarks.buildElementGrid numElements blockSize warpSize
          buildThread =
        .ok grid)
    {name : Nat × Nat}
    {warp : Warp}
    (found : grid.warp? name = some warp) :
    name.1 < Benchmarks.numBlocks numElements blockSize ∧
      name.2 <
          warpCount warpSize
            (Benchmarks.threadsInBlock numElements blockSize name.1) ∧
      warp.paths =
        abreast warpSize
          (Benchmarks.threadsInBlock numElements blockSize name.1) 0
          (Benchmarks.builtLane warpSize (buildThread name.1)) name.2 := by
  obtain ⟨ids, blocks⟩ :=
    Benchmarks.buildElementGrid_blocks someThreads built
  obtain ⟨block, search, atPosition⟩ := Option.bind_eq_some_iff.mp found
  have member := List.mem_of_find?_eq_some search
  have sameId : block.blockId = name.1 := by
    simpa using List.find?_some search
  have isId : block.blockId ∈ grid.blocks.map ThreadBlock.blockId :=
    List.mem_map_of_mem member
  obtain ⟨length, start⟩ := (blocks block member).start positive narrow
  rw [← sameId]
  refine ⟨?_, ?_, ?_⟩
  · rw [ids] at isId
    exact List.mem_range.mp isId
  · rw [← length]
    exact (List.getElem?_eq_some_iff.mp atPosition).1
  · rw [← start, ThreadBlock.start, atPosition]
    rfl

/-- Every thread of a grid of elements is a lane of a named warp. -/
theorem name_of_thread
    (someThreads : 0 < blockSize)
    (positive : 0 < warpSize)
    (narrow : warpSize ≤ 32)
    (wellFormed : grid.WellFormed)
    (built :
      Benchmarks.buildElementGrid numElements blockSize warpSize
          buildThread =
        .ok grid)
    {block localId : Nat}
    (isBlock : block < Benchmarks.numBlocks numElements blockSize)
    (isThread :
      localId < Benchmarks.threadsInBlock numElements blockSize block) :
    ∃ warp, grid.warp? (block, localId / warpSize) = some warp := by
  obtain ⟨ids, blocks⟩ :=
    Benchmarks.buildElementGrid_blocks someThreads built
  obtain ⟨threadBlock, member, rfl⟩ :
      ∃ threadBlock ∈ grid.blocks, threadBlock.blockId = block := by
    rw [← List.mem_map, ids]
    exact List.mem_range.mpr isBlock
  obtain ⟨length, _⟩ := (blocks threadBlock member).start positive narrow
  obtain ⟨isWarp, _⟩ := lane_of_thread positive isThread
  rw [← length] at isWarp
  exact
    ⟨_, Grid.warp?_eq wellFormed.distinct member (List.getElem?_eq_getElem isWarp)⟩

/-- The blocks of a grid of elements are well formed and have not started. -/
theorem elementGrid_wellFormed
    (someThreads : 0 < blockSize)
    (positive : 0 < warpSize)
    (narrow : warpSize ≤ 32)
    (built :
      Benchmarks.buildElementGrid numElements blockSize warpSize
          buildThread =
        .ok grid)
    (ofBlock :
      ∀ block warpId lane thread,
        buildThread block warpId lane = .ok thread →
        thread.blockId = block) :
    grid.WellFormed ∧ grid.Unstarted := by
  obtain ⟨ids, blocks⟩ :=
    Benchmarks.buildElementGrid_blocks someThreads built
  refine ⟨⟨?_, fun block member => ⟨?_, fun warp ofIt => ?_⟩⟩, ?_⟩
  · rw [ids]
    exact List.nodup_range
  · obtain ⟨length, _⟩ := (blocks block member).start positive narrow
    rw [← List.length_pos_iff, length, warpCount]
    have some := (blocks block member).some
    exact Nat.div_pos (by omega) positive
  · exact ((blocks block member).warp positive (ofBlock _) ofIt).2.2
  · intro block member warp ofIt
    rw [((blocks block member).warp positive (ofBlock _) ofIt).1]
    exact WarpState.noConfusion

/-- Threads that alone keep to an agreement. -/
def ThreadsKeep
    (numElements blockSize warpSize : Nat)
    (buildThread : Nat → Nat → Nat → Except SimError Thread)
    (transform : OwnLane → OwnLane)
    (initial : Nat → Word)
    (target : Nat → Option Word)
    (scope : Nat → Prop) : Prop :=
  ∀ block < Benchmarks.numBlocks numElements blockSize,
    ∀ localId < Benchmarks.threadsInBlock numElements blockSize block,
      ∀ access ∈
          (aloneAtEnd warpSize buildThread transform initial block
            localId).touched,
        Agrees target scope access

/-- The warps of threads that keep to an agreement make runs as agents. -/
theorem plans_of_threads
    (someThreads : 0 < blockSize)
    (positive : 0 < warpSize)
    (narrow : warpSize ≤ 32)
    (built :
      Benchmarks.buildElementGrid numElements blockSize warpSize
          buildThread =
        .ok grid)
    (does :
      OwnPaths.Does kernel 0 kernel.size (fun _ => True) transform)
    {initial : Nat → Word}
    {target : Nat → Option Word}
    {scope : Nat → Prop}
    (keeps :
      ThreadsKeep numElements blockSize warpSize buildThread transform
        initial target scope) :
    ∃ log stop,
      Plans grid kernel initial target scope
        (warpAtEnd kernel numElements blockSize warpSize buildThread transform
          initial)
        log stop := by
  have warps
      {name : Nat × Nat}
      {warp : Warp}
      (found : grid.warp? name = some warp) :=
    warp_of_name someThreads positive narrow built found
  refine plans_of_alone (fun name warp found => ?_) (fun name warp found => ?_)
    fun name warp found lane own isLane access touched => ?_
  · obtain ⟨_, inside, start⟩ := warps found
    rw [start]
    exact
      reaches_ownAbreast positive narrow does (fun _ _ => trivial) inside
  · simp [warpAtEnd, ownAbreast, OwnPaths.paths, PathState.ended]
  · obtain ⟨isBlock, _, _⟩ := warps found
    obtain ⟨within, rfl⟩ := ownAbreast_lane isLane
    exact keeps name.1 isBlock _ (thread_of_lane within).1 access touched

/--
When the threads of a grid of elements keep to an agreement, each alone with a
memory of its own, every run leaves the agreed values where some thread stores,
and everything else as it was.
-/
theorem agreeing_threads
    [WarpScheduler σ]
    [LawfulWarpScheduler σ]
    (someThreads : 0 < blockSize)
    (positive : 0 < warpSize)
    (narrow : warpSize ≤ 32)
    (built :
      Benchmarks.buildElementGrid numElements blockSize warpSize
          buildThread =
        .ok grid)
    (ofBlock :
      ∀ block warpId lane thread,
        buildThread block warpId lane = .ok thread →
        thread.blockId = block)
    (noBarrier : kernel.NoBarrier)
    (does :
      OwnPaths.Does kernel 0 kernel.size (fun _ => True) transform)
    {gpu after : GPU σ}
    {target : Nat → Option Word}
    (keeps :
      ThreadsKeep numElements blockSize warpSize buildThread transform
        gpu.globalMemory.data target IsGlobal)
    (nonempty : gpu.sms ≠ [])
    {config : SystemConfig}
    {req : KernelResourceRequirements}
    {fuel : Nat}
    (ran : gpu.launchAndRun grid config req kernel fuel = some (.ok after))
    (address : Nat) :
    ((∃ block < Benchmarks.numBlocks numElements blockSize,
          ∃ localId < Benchmarks.threadsInBlock numElements blockSize block,
            Stored
              (aloneAtEnd warpSize buildThread transform
                gpu.globalMemory.data block localId).touched
              address) →
        target address = some (after.globalMemory.data address)) ∧
      ((∀ block < Benchmarks.numBlocks numElements blockSize,
          ∀ localId < Benchmarks.threadsInBlock numElements blockSize block,
            ¬ Stored
                (aloneAtEnd warpSize buildThread transform
                  gpu.globalMemory.data block localId).touched
                address) →
        after.globalMemory.data address =
          gpu.globalMemory.data address) := by
  obtain ⟨wellFormed, unstarted⟩ :=
    elementGrid_wellFormed someThreads positive narrow built ofBlock
  let finish :=
    warpAtEnd kernel numElements blockSize warpSize buildThread transform
      gpu.globalMemory.data
  have warps
      {name : Nat × Nat}
      {warp : Warp}
      (found : grid.warp? name = some warp) :=
    warp_of_name someThreads positive narrow built found
  obtain ⟨log, stop, plans⟩ :=
    plans_of_threads someThreads positive narrow built does keeps
  have final :=
    agreeing_warps wellFormed unstarted noBarrier plans nonempty ran address
  have stored :
      (∃ name warp value,
          grid.warp? name = some warp ∧
            (finish name).Touched (.store address value)) ↔
        ∃ block < Benchmarks.numBlocks numElements blockSize,
          ∃ localId < Benchmarks.threadsInBlock numElements blockSize block,
            Stored
              (aloneAtEnd warpSize buildThread transform
                gpu.globalMemory.data block localId).touched
              address := by
    constructor
    · rintro ⟨name, warp, value, found, lane, own, isLane, touched⟩
      obtain ⟨isBlock, _, _⟩ := warps found
      obtain ⟨within, rfl⟩ := ownAbreast_lane isLane
      exact
        ⟨name.1, isBlock, _, (thread_of_lane within).1, value, touched⟩
    · rintro ⟨block, isBlock, localId, isThread, value, touched⟩
      obtain ⟨warp, found⟩ :=
        name_of_thread someThreads positive narrow wellFormed built isBlock
          isThread
      obtain ⟨_, isLane, split⟩ := lane_of_thread positive isThread
      refine
        ⟨_, warp, value, found, localId % warpSize, _,
          lane_ownAbreast isLane, ?_⟩
      rwa [split]
  rw [stored] at final
  refine ⟨final.1, fun nobody => final.2 ?_⟩
  rintro ⟨block, isBlock, localId, isThread, isStored⟩
  exact nobody block isBlock localId isThread isStored

end Threads

end GPU

end SimSm
