import SimSm.NamedWarps

namespace SimSm

/-!
# Race-free kernels do not depend on the schedule

Without barriers the warps of a grid are agents that share global memory and
nothing else.  When one run is free of races, every other run takes each warp
through the same instructions and ends with the same memory.
-/

open Interleaving Outcome

/-- The addresses of global memory. -/
def IsGlobal (address : Nat) : Prop :=
  MemorySystem.isShared address = false

attribute [ext] GlobalMemory

/-- What the warps of a run do at which address, by block and position. -/
def mayTouch
    (touches : List Touch)
    (name : Nat × Nat)
    (kind : AccessKind)
    (address : Nat) :
    Prop :=
  ∃ touch ∈ touches,
    (touch.blockId, touch.position) = name ∧ touch.access.kind = kind ∧
      touch.access.address = address

/-- Global memory as the warps of a multiprocessor see it. -/
theorem view_of_global
    {memory : MemorySystem}
    {address : Nat}
    (isGlobal : IsGlobal address) :
    memory.view address = memory.globalMemory.data address := by
  have notShared : ¬ MemorySystem.isShared address = true := by
    rw [isGlobal]
    exact Bool.false_ne_true
  rw [MemorySystem.view, dataView, if_neg notShared]

/-- A completed agent has nothing left to do. -/
theorem completed_stops
    {kernel : Kernel}
    {run : PathRun}
    (completed : run.completed = true) :
    kernel.agent.accesses run = none := by
  change run.accesses? kernel = none
  rw [PathRun.accesses?, if_pos completed]

/-! ## Agents with memories of their own -/

/--
Every agent is where some steps alone lead, of which `Track` tells, and global
memory is what the agents' own memories make up together.
-/
structure Agents
    (agents : Finset (Nat × Nat))
    (may : Nat × Nat → AccessKind → Nat → Prop)
    (Track : Nat × Nat → PathRun → (Nat → Word) → Prop)
    (initial : GlobalMemory)
    (here : Nat × Nat → PathRun)
    (own : Nat × Nat → Nat → Word)
    (globalMemory : GlobalMemory) :
    Prop where
  track : ∀ name, Track name (here name) (own name)
  shares :
    Shares agents may IsGlobal initial.data own globalMemory.data
  size : globalMemory.size = initial.size
  hidden :
    ∀ address,
      MemorySystem.isShared address = true →
      globalMemory.data address = initial.data address

namespace Agents

variable {kernel : Kernel}
variable {agents : Finset (Nat × Nat)}
variable {may : Nat × Nat → AccessKind → Nat → Prop}
variable {Track : Nat × Nat → PathRun → (Nat → Word) → Prop}
variable {initial before after : GlobalMemory}
variable {here there : Nat × Nat → PathRun}
variable {own : Nat × Nat → Nat → Word}

/-- Before any turn every agent's own memory is global memory. -/
theorem start
    (agents : Finset (Nat × Nat))
    (may : Nat × Nat → AccessKind → Nat → Prop)
    (track : ∀ name, Track name (here name) initial.data) :
    Agents agents may Track initial here (fun _ => initial.data)
      initial where
  track := track
  shares := .atStart agents may IsGlobal initial.data
  size := rfl
  hidden _ _ := rfl

/-- The step lemma: an agent that is allowed its accesses goes on as alone. -/
theorem turn
    (raceFree : RaceFree may IsGlobal)
    {name : Nat × Nat}
    {performed : List (Access Nat Word)}
    {memory memory' : MemorySystem}
    (isAgent : name ∈ agents)
    (known :
      Agents agents may Track initial here own memory.globalMemory)
    (accesses : kernel.agent.accesses (here name) = some performed)
    (effect : MemoryEffect performed memory memory')
    (allowed :
      ∀ access ∈ performed, Allowed may IsGlobal name access)
    (track :
      Track name (kernel.agent.next (here name) (own name))
        (applyAll performed (own name))) :
    Agents agents may Track initial
      (Function.update here name
        (kernel.agent.next (here name) memory.view))
      (Function.update own name (applyAll performed (own name)))
      memory'.globalMemory := by
  have shares :
      Shares agents may IsGlobal initial.data own memory.view :=
    known.shares.frame fun address isGlobal => view_of_global isGlobal
  have sameNext :
      kernel.agent.next (here name) memory.view =
        kernel.agent.next (here name) (own name) :=
    shares.next_eq raceFree accesses allowed
  have sharesNext := shares.step isAgent allowed
  rw [← effect.view] at sharesNext
  rw [sameNext]
  refine ⟨fun other => ?_, ?_, ?_, fun address isShared => ?_⟩
  · by_cases same : other = name
    · subst same
      rw [Function.update_self, Function.update_self]
      exact track
    · rw [Function.update_of_ne same, Function.update_of_ne same]
      exact known.track other
  · exact sharesNext.frame fun address isGlobal =>
      (view_of_global isGlobal).symm
  · exact effect.size.trans known.size
  · exact
      (effect.hidden address isShared).trans
        (known.hidden address isShared)

/-- The run lemma: so do all agents that take turns. -/
theorem turns
    (raceFree : RaceFree may IsGlobal)
    {permitted : Nat × Nat → Access Nat Word → Prop}
    (advances :
      ∀ {name : Nat × Nat} {here : PathRun} {own : Nat → Word}
          {performed : List (Access Nat Word)},
        Track name here own →
        kernel.agent.accesses here = some performed →
        (∀ access ∈ performed, permitted name access) →
        (∀ access ∈ performed, Allowed may IsGlobal name access) ∧
          Track name (kernel.agent.next here own)
            (applyAll performed own))
    {touches : List Touch}
    (turns : TakeTurns kernel agents here before touches there after)
    (known : Agents agents may Track initial here own before)
    (permits :
      ∀ touch ∈ touches,
        permitted (touch.blockId, touch.position) touch.access) :
    ∃ last, Agents agents may Track initial there last after := by
  induction turns generalizing own with
  | here => exact ⟨own, known⟩
  | step isAgent sameBefore accesses effect _ inductionHypothesis =>
      rename_i name performed _ _ _ _
      subst sameBefore
      obtain ⟨allowed, track⟩ :=
        advances (known.track name) accesses fun access member =>
          permits _
            (List.mem_append_left _
              (List.mem_map.mpr ⟨access, member, rfl⟩))
      exact
        inductionHypothesis
          (known.turn raceFree isAgent accesses effect allowed track)
          fun touch later =>
            permits touch (List.mem_append_right _ later)

end Agents

namespace GPU

variable {σ τ : Type}

/--
A race-free run of a kernel without barriers fixes the global memory in which
every other run of it ends.
-/
theorem race_free_runs_agree
    [WarpScheduler σ]
    [LawfulWarpScheduler σ]
    [WarpScheduler τ]
    [LawfulWarpScheduler τ]
    {grid : Grid}
    (distinct : (grid.blocks.map ThreadBlock.blockId).Nodup)
    (nonempty : ∀ block ∈ grid.blocks, block.warps ≠ [])
    (unstarted : grid.Unstarted)
    {kernel : Kernel}
    (noBarrier : kernel.NoBarrier)
    {gpu after : GPU σ}
    {other otherAfter : GPU τ}
    (someSms : gpu.sms ≠ [])
    (otherSms : other.sms ≠ [])
    (sameMemory : other.globalMemory = gpu.globalMemory)
    {config otherConfig : SystemConfig}
    {req otherReq : KernelResourceRequirements}
    {fuel otherFuel : Nat}
    (ran :
      gpu.launchAndRun grid config req kernel fuel = some (.ok after))
    (otherRan :
      other.launchAndRun grid otherConfig otherReq kernel otherFuel =
        some (.ok otherAfter))
    (inGlobal :
      ∀ touch ∈ gpu.launchAndRunTouches grid config req kernel fuel,
        IsGlobal touch.access.address)
    (raceFree :
      RaceFree
        (mayTouch (gpu.launchAndRunTouches grid config req kernel fuel))
        IsGlobal) :
    otherAfter.globalMemory = after.globalMemory := by
  obtain ⟨finish, turns, finished⟩ :=
    launchAndRun_turns distinct nonempty unstarted noBarrier someSms ran
  obtain ⟨otherFinish, otherTurns, otherFinished⟩ :=
    launchAndRun_turns distinct nonempty unstarted noBarrier otherSms
      otherRan
  generalize touched :
    gpu.launchAndRunTouches grid config req kernel fuel = touches
    at inGlobal raceFree turns
  let allowed : Nat × Nat → Access Nat Word → Prop :=
    Allowed (mayTouch touches) IsGlobal
  let initial := gpu.globalMemory
  -- The first run: every agent does on its own what the run made it do.
  let reached (name : Nat × Nat) (here : PathRun) (own : Nat → Word) :=
    kernel.agent.Alone (allowed name) (grid.startOf name) initial.data
      here own
  have started :
      Agents grid.names (mayTouch touches) reached initial grid.startOf
        (fun _ => initial.data) gpu.globalMemory :=
    .start _ _ fun name => .here _ _
  obtain ⟨last, ended⟩ :=
    started.turns raceFree
      (fun track accesses permits => ⟨permits, track.extend accesses permits⟩)
      turns
      fun touch member =>
        ⟨⟨touch, member, rfl, rfl, rfl⟩, inGlobal touch member⟩
  -- The second run: every agent is on the way to where the first one left it.
  let remaining (name : Nat × Nat) (here : PathRun) (own : Nat → Word) :=
    kernel.agent.Alone (allowed name) here own (finish name) (last name)
  have otherStarted :
      Agents grid.names (mayTouch touches) remaining initial grid.startOf
        (fun _ => initial.data) other.globalMemory := by
    rw [sameMemory]
    exact .start _ _ ended.track
  let anything (_ : Nat × Nat) (_ : Access Nat Word) : Prop := True
  have permitted :
      ∀ touch ∈
          other.launchAndRunTouches grid otherConfig otherReq kernel
            otherFuel,
        anything (touch.blockId, touch.position) touch.access :=
    fun _ _ => trivial
  obtain ⟨otherLast, otherEnded⟩ :=
    otherStarted.turns raceFree
      (fun track accesses _ =>
        track.advance (completed_stops (finished _)) accesses)
      otherTurns permitted
  have sameLast : otherLast = last := by
    funext name
    exact
      ((otherEnded.track name).of_stopped
        (completed_stops (otherFinished name))).2.symm
  rw [sameLast] at otherEnded
  refine GlobalMemory.ext ?_ ?_
  · exact otherEnded.size.trans ended.size.symm
  · funext address
    cases isShared : MemorySystem.isShared address with
    | false =>
        exact otherEnded.shares.memory_unique ended.shares raceFree isShared
    | true =>
        exact
          (otherEnded.hidden address isShared).trans
            (ended.hidden address isShared).symm

/-- Additions never race. -/
theorem raceFree_of_adds
    {touches : List Touch}
    (adds : ∀ touch ∈ touches, touch.access.kind = .add) :
    RaceFree (mayTouch touches) IsGlobal := by
  intro address _
  right
  right
  rintro name kind ⟨touch, member, _, rfl, _⟩
  exact adds touch member

/-- Room for three blocks at a time. -/
def roomyConfig : SystemConfig where
  numSms := 1
  warpSize := 1
  blockSize := 1
  maxThreadsPerSm := 3
  maxBlocksPerSm := 3
  maxSharedMemoryPerSm := 1
  maxRegistersPerSm := 96

/-- Every thread adds five to the first cell. -/
def addFive : Kernel :=
  ⟨[⟨.mov, 0, -1, -1, 5⟩, ⟨.atomicAdd, -1, 0, -1, 0⟩], by decide⟩

theorem addFive_noBarrier : addFive.NoBarrier := by
  decide

/-- Three blocks, with threads in the second one that carry the first id. -/
def strayGrid : Grid :=
  ⟨[.narrow 4 1, ⟨2, (ThreadBlock.narrow 4 1).warps⟩, .narrow 7 1]⟩

/-- Three blocks add one after the other, or side by side. -/
theorem race_free_runs_agree_one_at_a_time :
    ∃ after otherAfter,
      (single narrowConfig).launchAndRun strayGrid narrowConfig ⟨32, 0⟩
            addFive 20 =
          some (.ok after) ∧
        (single roomyConfig).launchAndRun strayGrid roomyConfig ⟨32, 0⟩
              addFive 20 =
            some (.ok otherAfter) ∧
          otherAfter.globalMemory = after.globalMemory := by
  obtain ⟨after, ran⟩ :
      ∃ after,
        (single narrowConfig).launchAndRun strayGrid narrowConfig ⟨32, 0⟩
            addFive 20 =
          some (.ok after) := by
    refine returns_of_any ?_
    decide +kernel
  obtain ⟨otherAfter, otherRan⟩ :
      ∃ otherAfter,
        (single roomyConfig).launchAndRun strayGrid roomyConfig ⟨32, 0⟩
            addFive 20 =
          some (.ok otherAfter) := by
    refine returns_of_any ?_
    decide +kernel
  have unstarted : strayGrid.Unstarted := by
    unfold Grid.Unstarted
    decide
  have touches :
      ∀ touch ∈
          (single narrowConfig).launchAndRunTouches strayGrid narrowConfig
            ⟨32, 0⟩ addFive 20,
        touch.access.kind = .add ∧
          MemorySystem.isShared touch.access.address = false := by
    decide +kernel
  have sameMemory :
      (single roomyConfig).globalMemory =
        (single narrowConfig).globalMemory :=
    rfl
  have same :=
    race_free_runs_agree (by decide) (by decide) unstarted
      addFive_noBarrier (List.cons_ne_nil _ _) (List.cons_ne_nil _ _)
      sameMemory ran otherRan (fun touch member => (touches touch member).2)
      (raceFree_of_adds fun touch member => (touches touch member).1)
  exact ⟨after, otherAfter, ran, otherRan, same⟩

/-- The data that a run leaves in the first cell. -/
def firstCell (outcome : Option (Except SimError (GPU σ))) : Option Word :=
  outcome.bind fun result =>
    result.toOption.map fun after => after.globalMemory.data 0

theorem returns_of_firstCell
    {outcome : Option (Except SimError (GPU σ))}
    {value : Word}
    (isFirst : firstCell outcome = some value) :
    ∃ after,
      outcome = some (.ok after) ∧ after.globalMemory.data 0 = value := by
  obtain ⟨result, ran, isValue⟩ := Option.bind_eq_some_iff.mp isFirst
  cases result with
  | error error => cases isValue
  | ok after => exact ⟨after, ran, Option.some.inj isValue⟩

/--
A grid with blocks that are completed before the launch: one at a time, they
end the run before the last block adds anything; side by side, they do not.
-/
theorem completed_blocks_change_result :
    (Grid.WellFormed ⟨[completedBlock 0, completedBlock 1, .narrow 2 1]⟩ ∧
        addFive.NoBarrier ∧
          (single narrowConfig).globalMemory =
            (single roomyConfig).globalMemory) ∧
      ∃ after otherAfter,
        (single narrowConfig).launchAndRun
              ⟨[completedBlock 0, completedBlock 1, .narrow 2 1]⟩
              narrowConfig ⟨32, 0⟩ addFive 20 =
            some (.ok after) ∧
          (single roomyConfig).launchAndRun
                ⟨[completedBlock 0, completedBlock 1, .narrow 2 1]⟩
                roomyConfig ⟨32, 0⟩ addFive 20 =
              some (.ok otherAfter) ∧
            (∀ touch ∈
                (single roomyConfig).launchAndRunTouches
                  ⟨[completedBlock 0, completedBlock 1, .narrow 2 1]⟩
                  roomyConfig ⟨32, 0⟩ addFive 20,
              touch.access.kind = .add ∧
                IsGlobal touch.access.address) ∧
              otherAfter.globalMemory ≠ after.globalMemory := by
  constructor
  · refine
      ⟨⟨by decide, fun block member => ?_⟩, addFive_noBarrier, rfl⟩
    simp only [List.mem_cons, List.not_mem_nil, or_false] at member
    rcases member with rfl | rfl | rfl
    · exact ⟨List.cons_ne_nil _ _, completedBlock_wellFormed 0⟩
    · exact ⟨List.cons_ne_nil _ _, completedBlock_wellFormed 1⟩
    · exact
        ⟨List.cons_ne_nil _ _, ThreadBlock.narrow_wellFormed 2 1⟩
  · obtain ⟨after, ran, isZero⟩ :
        ∃ after,
          (single narrowConfig).launchAndRun
                ⟨[completedBlock 0, completedBlock 1, .narrow 2 1]⟩
                narrowConfig ⟨32, 0⟩ addFive 20 =
              some (.ok after) ∧
            after.globalMemory.data 0 = 0 := by
      refine returns_of_firstCell ?_
      decide +kernel
    obtain ⟨otherAfter, otherRan, isFive⟩ :
        ∃ otherAfter,
          (single roomyConfig).launchAndRun
                ⟨[completedBlock 0, completedBlock 1, .narrow 2 1]⟩
                roomyConfig ⟨32, 0⟩ addFive 20 =
              some (.ok otherAfter) ∧
            otherAfter.globalMemory.data 0 = 5 := by
      refine returns_of_firstCell ?_
      decide +kernel
    refine ⟨after, otherAfter, ran, otherRan, ?_, fun same => ?_⟩
    · unfold IsGlobal
      decide +kernel
    · rw [same, isZero] at isFive
      exact absurd isFive (by decide)

end GPU

end SimSm
