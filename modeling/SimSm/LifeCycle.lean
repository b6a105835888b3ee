import SimSm.Accounting

namespace SimSm

/-!
# The life cycle of a warp

State, stall counter and wait counter of a warp are separate fields, written by
the phases of a tick, by barrier releases and by the executor.  They stay in
step over every run of a multiprocessor, and a completed warp is final.
-/

open InstructionExecutor

/-- One change of state. -/
inductive Changes : WarpState → WarpState → Prop where
  | stall : Changes .ready .stalled
  | arrive : Changes .ready .stalledAtBarrier
  | complete : Changes .ready .completed
  | wake : Changes .stalled .ready
  | release : Changes .stalledAtBarrier .ready

/-- What a tick makes of a state; a stalled warp can pass through ready. -/
def Moves (before after : WarpState) : Prop :=
  after = before ∨ Changes before after ∨
    before = .stalled ∧ Changes .ready after

/-- A ready warp may be in any state after its instruction. -/
theorem moves_of_ready
    {before : WarpState}
    (woken : before = .ready ∨ before = .stalled)
    (after : WarpState) :
    Moves before after := by
  rcases woken with rfl | rfl
  · cases after with
    | ready => exact Or.inl rfl
    | stalled => exact Or.inr (Or.inl .stall)
    | stalledAtBarrier => exact Or.inr (Or.inl .arrive)
    | completed => exact Or.inr (Or.inl .complete)
  · cases after with
    | ready => exact Or.inr (Or.inl .wake)
    | stalled => exact Or.inl rfl
    | stalledAtBarrier => exact Or.inr (Or.inr ⟨rfl, .arrive⟩)
    | completed => exact Or.inr (Or.inr ⟨rfl, .complete⟩)

namespace Warp

/-- A ready warp with zero counters. -/
structure Newborn (warp : Warp) : Prop where
  state : warp.state = .ready
  stall : warp.stallCyclesRemaining = 0
  wait : warp.currentWaitCycles = 0

/-- The counters of a warp agree with its state. -/
structure InStep (warp : Warp) : Prop where
  stall : warp.state = .stalled ↔ 0 < warp.stallCyclesRemaining
  wait : warp.currentWaitCycles ≠ 0 → warp.state = .ready

/-- A warp that neither stalls nor has counted a wait. -/
structure Unburdened (warp : Warp) : Prop where
  state : warp.state ≠ .stalled
  stall : warp.stallCyclesRemaining = 0
  wait : warp.currentWaitCycles = 0

theorem Newborn.unburdened
    {warp : Warp}
    (fresh : warp.Newborn) :
    warp.Unburdened :=
  ⟨by rw [fresh.state]; exact WarpState.noConfusion, fresh.stall,
    fresh.wait⟩

theorem Unburdened.inStep
    {warp : Warp}
    (unburdened : warp.Unburdened) :
    warp.InStep where
  stall :=
    ⟨fun stalled => absurd stalled unburdened.state, fun positive =>
      absurd unburdened.stall positive.ne'⟩
  wait := fun waits => absurd unburdened.wait waits

/-- A warp in step that is not stalled has no stall left. -/
theorem InStep.unstalled
    {warp : Warp}
    (inStep : warp.InStep)
    (notStalled : warp.state ≠ .stalled) :
    warp.stallCyclesRemaining = 0 :=
  Nat.eq_zero_of_not_pos fun positive =>
    notStalled (inStep.stall.mpr positive)

/-! ## Time -/

/-- The last stall cycle and the end of the stall coincide. -/
theorem InStep.tickStall
    {warp : Warp}
    (inStep : warp.InStep)
    (cycle : Nat) :
    (warp.tickStall cycle).InStep := by
  unfold Warp.tickStall
  split
  case isTrue stalled =>
    have noWait : warp.currentWaitCycles = 0 := by
      by_contra waits
      rw [inStep.wait waits] at stalled
      cases stalled.1
    split
    case isTrue last =>
      exact Unburdened.inStep ⟨WarpState.noConfusion, last, noWait⟩
    case isFalse more =>
      exact
        ⟨⟨fun _ => Nat.pos_of_ne_zero more, fun _ => stalled.1⟩,
          fun waits => absurd noWait waits⟩
  case isFalse => exact inStep

/-- The starvation check keeps the stall counter. -/
theorem checkAndSetStarvation_stall (warp : Warp) :
    warp.checkAndSetStarvation.2.stallCyclesRemaining =
      warp.stallCyclesRemaining := by
  unfold checkAndSetStarvation
  split <;> rfl

/-- Wait accounting keeps the stall counter. -/
theorem accountWarp_stall
    (selectedId : Option Nat)
    (counters : PerformanceCounter)
    (warp : Warp) :
    (SM.accountWarp selectedId counters warp).2.stallCyclesRemaining =
      warp.stallCyclesRemaining := by
  unfold SM.accountWarp
  split
  · split
    · rfl
    · exact checkAndSetStarvation_stall warp.incrementWaitCycles
  · rfl

/-- Wait accounting leaves a warp alone that is not ready. -/
theorem accountWarp_notReady
    {warp : Warp}
    (notReady : warp.state ≠ .ready)
    (selectedId : Option Nat)
    (counters : PerformanceCounter) :
    (SM.accountWarp selectedId counters warp).2 = warp := by
  rw [SM.accountWarp, if_neg notReady]

/-- Only ready warps count waits. -/
theorem InStep.accountWarp
    {warp : Warp}
    (inStep : warp.InStep)
    (selectedId : Option Nat)
    (counters : PerformanceCounter) :
    (SM.accountWarp selectedId counters warp).2.InStep := by
  by_cases ready : warp.state = .ready
  · have same :=
      (SM.accountWarp_accounted selectedId counters warp).state
    refine ⟨?_, fun _ => same.trans ready⟩
    rw [same, accountWarp_stall]
    exact inStep.stall
  · rw [accountWarp_notReady ready]
    exact inStep

/-- A completed warp is not changed by time. -/
theorem tickStall_completed
    {warp : Warp}
    (completed : warp.state = .completed)
    (cycle : Nat) :
    warp.tickStall cycle = warp := by
  rw [Warp.tickStall, if_neg]
  rw [completed]
  exact fun stalled => WarpState.noConfusion stalled.1

/-! ## Instructions -/

/-- Executing an instruction burdens no warp. -/
theorem Unburdened.execute
    {inst : Instruction}
    {warp executed : Warp}
    {memory memory' : MemorySystem}
    {result : ExecutionResult}
    (unburdened : warp.Unburdened)
    (ran :
      InstructionExecutor.execute inst (warp, memory) =
        .ok result (executed, memory')) :
    executed.Unburdened where
  state := (execute_ok ran).shell.state ▸ unburdened.state
  stall :=
    (execute_ok ran).shell.stallCyclesRemaining.trans unburdened.stall
  wait := (execute_ok ran).shell.currentWaitCycles.trans unburdened.wait

/-- A warp that arrives at a barrier stays unburdened. -/
theorem Unburdened.setStalledAtBarrier
    {warp : Warp}
    (unburdened : warp.Unburdened) :
    warp.setStalledAtBarrier.Unburdened :=
  ⟨WarpState.noConfusion, unburdened.stall, rfl⟩

/-- A release keeps the stall counter. -/
theorem releaseFrom_stall
    (blockId cycle : Nat)
    (warp : Warp) :
    (warp.releaseFrom blockId cycle).stallCyclesRemaining =
      warp.stallCyclesRemaining := by
  unfold Warp.releaseFrom setReady
  split
  · split <;> rfl
  · rfl

/-- A release changes nothing or ends a wait at a barrier. -/
theorem releaseFrom_cases
    (blockId cycle : Nat)
    (warp : Warp) :
    warp.releaseFrom blockId cycle = warp ∨
      warp.state = .stalledAtBarrier ∧
        (warp.releaseFrom blockId cycle).state = .ready := by
  unfold Warp.releaseFrom
  split
  case isTrue waits =>
    rw [Bool.and_eq_true, beq_iff_eq] at waits
    right
    refine ⟨waits.2, ?_⟩
    simp [setReady, waits.2]
  case isFalse => exact Or.inl rfl

/-- A release keeps a warp in step. -/
theorem InStep.releaseFrom
    {warp : Warp}
    (inStep : warp.InStep)
    (blockId cycle : Nat) :
    (warp.releaseFrom blockId cycle).InStep := by
  rcases warp.releaseFrom_cases blockId cycle with same | ⟨waits, ready⟩
  · rw [same]
    exact inStep
  · refine ⟨?_, fun _ => ready⟩
    have none : warp.stallCyclesRemaining = 0 :=
      inStep.unstalled (by rw [waits]; exact WarpState.noConfusion)
    rw [ready, releaseFrom_stall, none]
    exact ⟨WarpState.noConfusion, fun positive => absurd rfl positive.ne⟩

/-- A release burdens no warp. -/
theorem Unburdened.releaseFrom
    {warp : Warp}
    (unburdened : warp.Unburdened)
    (blockId cycle : Nat) :
    (warp.releaseFrom blockId cycle).Unburdened where
  state := by
    rcases warp.releaseFrom_cases blockId cycle with same | ⟨_, ready⟩
    · rw [same]
      exact unburdened.state
    · rw [ready]
      exact WarpState.noConfusion
  stall := (releaseFrom_stall _ _ _).trans unburdened.stall
  wait := (Accounting.releaseFrom_wait _ _ _).trans unburdened.wait

/-- Settling an unburdened warp leaves it in step. -/
theorem Unburdened.settle
    {warp : Warp}
    (unburdened : warp.Unburdened)
    (kernel : Kernel)
    (result : ExecutionResult) :
    (SM.settle kernel result warp).InStep := by
  unfold SM.settle
  split
  · cases stack : warp.simtStack with
    | nil =>
        rw [popSimtStack, stack]
        dsimp only
        split
        · exact
            Unburdened.inStep
              ⟨WarpState.noConfusion, unburdened.stall, unburdened.wait⟩
        · exact unburdened.inStep
    | cons entry rest =>
        rw [popSimtStack, stack]
        exact
          Unburdened.inStep
            ⟨unburdened.state, unburdened.stall, unburdened.wait⟩
  · split
    case isTrue slow =>
      have positive : 0 < result.latency - 1 := by omega
      rw [Warp.stall, if_pos positive]
      exact ⟨⟨fun _ => positive, fun _ => rfl⟩, fun waits => absurd rfl waits⟩
    case isFalse => exact unburdened.inStep

end Warp

/-! ## Ticks -/

/-- What a tick does to a warp in step. -/
structure Lives (before after : Warp) : Prop where
  inStep : after.InStep
  moves : Moves before.state after.state
  final : before.state = .completed → after = before

/-- A warp that nothing happens to. -/
theorem Lives.refl
    {warp : Warp}
    (inStep : warp.InStep) :
    Lives warp warp :=
  ⟨inStep, Or.inl rfl, fun _ => rfl⟩

/-- Wait accounting after a change changes neither state nor step. -/
theorem Lives.accounted
    {before after : Warp}
    (lives : Lives before after)
    (selectedId : Option Nat)
    (counters : PerformanceCounter) :
    Lives before (SM.accountWarp selectedId counters after).2 where
  inStep := lives.inStep.accountWarp _ _
  moves := by
    rw [(SM.accountWarp_accounted selectedId counters after).state]
    exact lives.moves
  final := fun completed => by
    have same := lives.final completed
    rw [Warp.accountWarp_notReady, same]
    rw [same, completed]
    exact WarpState.noConfusion

/-- A release after some time is one change of state. -/
theorem Lives.released
    {first second third : Warp}
    (lives : Lives first second)
    (waited : Waited first second)
    (shape :
      third = second ∨
        ∃ blockId cycle, third = second.releaseFrom blockId cycle) :
    Lives first third := by
  rcases shape with rfl | ⟨blockId, cycle, rfl⟩
  · exact lives
  · rcases second.releaseFrom_cases blockId cycle with
      same | ⟨waits, ready⟩
    · rw [same]
      exact lives
    · have atBarrier := waited.atBarrier_iff.mp waits
      refine ⟨lives.inStep.releaseFrom _ _, ?_, fun completed => ?_⟩
      · rw [ready, atBarrier]
        exact Or.inr (Or.inl .release)
      · rw [atBarrier] at completed
        cases completed

namespace SM

variable {σ : Type}

/-- Every warp is in step. -/
def InStep (sm : SM σ) : Prop :=
  ∀ warp ∈ sm.warps, warp.InStep

/-- Counting stalls down keeps the warps in step. -/
theorem InStep.tickStalls
    {sm : SM σ}
    (inStep : sm.InStep) :
    List.Forall₂ Lives sm.warps sm.tickStalls.warps := by
  unfold SM.tickStalls
  rw [List.forall₂_map_right_iff, List.forall₂_same]
  intro warp member
  refine
    ⟨(inStep warp member).tickStall _, ?_, fun completed =>
      Warp.tickStall_completed completed _⟩
  rcases (warp.tickStall_waited sm.counters.cycles).state with
    same | ⟨stalled, _⟩
  · exact Or.inl same
  · exact moves_of_ready (Or.inr stalled) _

variable [WarpScheduler σ]
variable {kernel : Kernel}
variable {memory memory' : MemorySystem}

/-- Up to the issue, a tick keeps the warps in step. -/
theorem InStep.timed
    {sm : SM σ}
    (inStep : sm.InStep) :
    List.Forall₂ Lives sm.warps sm.timed := by
  unfold SM.timed accountSelection
  dsimp only
  rw [accountWarps_warps, List.forall₂_map_right_iff]
  exact
    inStep.tickStalls.imp fun _ _ lives => lives.accounted _ _

section Issue

variable {warps after : List Warp}
variable {index : Nat}
variable {warp changed : Warp}

/-- The issued warp is in step after its instruction. -/
theorem IssueStep.own
    (step : IssueStep kernel warps index warp memory after memory')
    (unburdened : warp.Unburdened)
    (found : after[index]? = some changed) :
    changed.InStep := by
  obtain ⟨inside, _⟩ := List.getElem?_eq_some_iff.mp found
  cases step with
  | pastEnd _ =>
      rw [List.length_set] at inside
      rw [List.getElem?_set_self inside] at found
      cases found
      exact
        Warp.Unburdened.inStep
          ⟨WarpState.noConfusion, unburdened.stall, unburdened.wait⟩
  | executed _ ran _ =>
      rw [List.length_set] at inside
      rw [List.getElem?_set_self inside] at found
      cases found
      exact (unburdened.execute ran).settle _ _
  | waits _ ran _ _ =>
      rw [List.length_set] at inside
      rw [List.getElem?_set_self inside] at found
      cases found
      exact (unburdened.execute ran).setStalledAtBarrier.settle _ _
  | released cycle _ ran _ _ =>
      rw [List.length_set] at inside
      rw [List.getElem?_set_self inside] at found
      cases found
      exact
        ((unburdened.execute ran).setStalledAtBarrier.releaseFrom
          _ _).settle _ _

/-- Every other warp stays as it is, but for a release from a barrier. -/
theorem IssueStep.elsewhere
    {position : Nat}
    {before : Warp}
    (step : IssueStep kernel warps index warp memory after memory')
    (elsewhere : position ≠ index)
    (found : warps[position]? = some before)
    (foundAfter : after[position]? = some changed) :
    changed = before ∨
      ∃ blockId cycle, changed = before.releaseFrom blockId cycle := by
  cases step with
  | pastEnd _ | executed _ _ _ | waits _ _ _ _ =>
      rw [List.getElem?_set_ne elsewhere.symm, found] at foundAfter
      exact Or.inl (Option.some.inj foundAfter).symm
  | released cycle _ _ _ _ =>
      rw [List.getElem?_set_ne elsewhere.symm, List.getElem?_map, found]
        at foundAfter
      exact Or.inr ⟨_, _, (Option.some.inj foundAfter).symm⟩

end Issue

/-- A tick keeps the warps in step and moves each of them on its cycle. -/
theorem InStep.tick
    [LawfulWarpScheduler σ]
    {sm after : SM σ}
    (inStep : sm.InStep)
    (ran : sm.tick kernel memory = .ok (after, memory')) :
    List.Forall₂ Lives sm.warps after.warps := by
  have lengths : sm.warps.length = after.warps.length := by
    simpa only [List.length_map] using
      (congrArg List.length (tick_ok ran).2.2.identities).symm
  cases ticking ran with
  | completed _ =>
      exact List.forall₂_same.mpr fun warp member => .refl (inStep warp member)
  | unscheduled _ _ => exact inStep.tickStalls
  | idle _ _ _ =>
      rw [(idle_ledger sm.accounted).2.1]
      exact inStep.timed
  | issued uncompleted scheduled selected issues =>
      rename_i index warp
      have isTimed : sm.accounted.warps[index]? = some warp :=
        issued?_timed selected
      obtain ⟨_, _, step⟩ := issue_ok isTimed issues
      obtain ⟨_, _, timedLives⟩ := Pointwise.origin inStep.timed isTimed
      have ready := issued?_ready selected
      have unburdened : warp.Unburdened :=
        ⟨by rw [ready]; exact WarpState.noConfusion,
          timedLives.inStep.unstalled
            (by rw [ready]; exact WarpState.noConfusion),
          Accounting.issued?_wait uncompleted selected⟩
      refine Pointwise.of_positions lengths ?_
      intro position before changed found foundAfter
      obtain ⟨other, foundOther, waited⟩ :=
        Pointwise.partner sm.timed_waited found
      by_cases isIssued : position = index
      · subst isIssued
        rw [issued?_timed selected, Option.some.injEq] at foundOther
        subst foundOther
        refine ⟨step.own unburdened foundAfter, ?_, fun completed => ?_⟩
        · refine moves_of_ready ?_ _
          rcases waited.state with same | ⟨stalled, _⟩
          · exact Or.inl (same.symm.trans ready)
          · exact Or.inr stalled
        · rw [waited.completed_iff.mpr completed] at ready
          cases ready
      · exact
          (Pointwise.related_at inStep.timed found foundOther).released
            waited (step.elsewhere isIssued foundOther foundAfter)

/-! ## Runs -/

/--
The multiprocessors that admissions of new warps, ticks and releases reach from
one, with the position that each resident warp had there, if it was there.
-/
inductive Lived (start : SM σ) : SM σ → List (Option Nat) → Prop where
  | start :
      Lived start start ((List.range start.warps.length).map some)
  | allocate
      {sm : SM σ}
      {origins : List (Option Nat)}
      {block : ThreadBlock}
      {req : KernelResourceRequirements}
      (earlier : Lived start sm origins)
      (fresh : ∀ warp ∈ block.warps, warp.Newborn) :
      Lived start (sm.allocateBlock block req)
        (origins ++ block.warps.map fun _ => none)
  | tick
      {sm after : SM σ}
      {origins : List (Option Nat)}
      {kernel : Kernel}
      {memory memory' : MemorySystem}
      (earlier : Lived start sm origins)
      (ran : sm.tick kernel memory = .ok (after, memory')) :
      Lived start after origins
  | release
      {sm : SM σ}
      {origins : List (Option Nat)}
      (earlier : Lived start sm origins) :
      Lived start sm.releaseCompletedBlocks (sm.retain origins)

/-- A warp that was completed at its origin is still the same. -/
def Final (start : SM σ) (warp : Warp) (origin : Option Nat) : Prop :=
  ∀ (position : Nat) (completed : Warp),
    origin = some position →
    start.warps[position]? = some completed →
    completed.state = .completed →
    warp = completed

section Runs

variable [LawfulWarpScheduler σ]
variable {start sm : SM σ}
variable {origins : List (Option Nat)}

/-- Every reachable multiprocessor has its warps in step. -/
theorem Lived.inStep
    (run : Lived start sm origins)
    (inStep : start.InStep) :
    sm.InStep := by
  induction run with
  | start => exact inStep
  | allocate _ fresh inductionHypothesis =>
      intro warp member
      rw [(allocateBlock_admits _ _ _).warps, List.mem_append] at member
      rcases member with old | new
      · exact inductionHypothesis warp old
      · exact (fresh warp new).unburdened.inStep
  | tick _ ran inductionHypothesis =>
      intro warp member
      obtain ⟨position, found⟩ := List.mem_iff_getElem?.mp member
      obtain ⟨_, _, lives⟩ :=
        Pointwise.origin (inductionHypothesis.tick ran) found
      exact lives.inStep
  | release _ inductionHypothesis =>
      intro warp member
      rw [releaseCompletedBlocks_eq] at member
      exact inductionHypothesis warp (List.mem_of_mem_filter member)

/-- Completed warps do not change before their blocks are released. -/
theorem Lived.final
    (run : Lived start sm origins)
    (inStep : start.InStep) :
    List.Forall₂ (Final start) sm.warps origins := by
  induction run with
  | start =>
      refine Pointwise.of_positions (by simp) ?_
      rintro position warp origin found isOrigin was completed rfl atStart _
      rw [List.getElem?_map, Option.map_eq_some_iff] at isOrigin
      obtain ⟨index, atIndex, same⟩ := isOrigin
      cases same
      rw [List.getElem?_range (List.getElem?_eq_some_iff.mp found).1]
        at atIndex
      cases atIndex
      rw [found] at atStart
      exact Option.some.inj atStart
  | allocate _ fresh inductionHypothesis =>
      rw [(allocateBlock_admits _ _ _).warps]
      refine List.rel_append inductionHypothesis ?_
      rw [List.forall₂_map_right_iff, List.forall₂_same]
      intro _ _ _ _ none
      cases none
  | tick earlier ran inductionHypothesis =>
      have lives := (earlier.inStep inStep).tick ran
      refine Pointwise.compose lives.flip inductionHypothesis ?_
      rintro changed before origin lived final was completed isOrigin atStart
        isCompleted
      have same := final was completed isOrigin atStart isCompleted
      rw [← same] at isCompleted
      rw [lived.final isCompleted, same]
  | release _ inductionHypothesis => exact retain_related inductionHypothesis

/--
Over every run of a multiprocessor whose warps start ready with zero counters,
stalled warps are those with stall cycles left, only ready warps have counted a
wait, completed warps are final, and a tick moves every warp on its cycle.
-/
theorem warps_liveInStep
    (fresh : ∀ warp ∈ start.warps, warp.Newborn)
    (run : Lived start sm origins) :
    (∀ warp ∈ sm.warps,
        (warp.state = .stalled ↔ 0 < warp.stallCyclesRemaining) ∧
          (warp.currentWaitCycles ≠ 0 → warp.state = .ready)) ∧
      (∀ later positions,
        Lived sm later positions →
        List.Forall₂ (Final sm) later.warps positions) ∧
      ∀ kernel memory after memory',
        sm.tick kernel memory = .ok (after, memory') →
        List.Forall₂
          (fun before changed => Moves before.state changed.state)
          sm.warps after.warps := by
  have startInStep : start.InStep :=
    fun warp member => (fresh warp member).unburdened.inStep
  have inStep := run.inStep startInStep
  refine ⟨fun warp member => ?_, fun _ _ later => ?_, ?_⟩
  · exact ⟨(inStep warp member).stall, (inStep warp member).wait⟩
  · exact later.final inStep
  · rintro kernel memory after memory' ran
    exact (inStep.tick ran).imp fun _ _ lives => lives.moves

end Runs

/-- A kernel without instructions. -/
def emptyKernel : Kernel :=
  ⟨[], by decide⟩

/-- A multiprocessor with one warp of one thread. -/
def lone : SM Scheduler :=
  (vacantWith Scheduler.greedy).allocateBlock (.narrow 4 1) ⟨8, 10⟩

/-- The same after its warp has ended. -/
def ended : SM Scheduler :=
  lone.stepped emptyKernel (.minimal 1)

/-- The same with one more block. -/
def joined : SM Scheduler :=
  ended.allocateBlock (.narrow 5 1) ⟨8, 10⟩

/-- The one warp of a block of one thread is new. -/
theorem narrow_newborn
    {blockId : Nat}
    {warp : Warp}
    (member : warp ∈ (ThreadBlock.narrow blockId 1).warps) :
    warp.Newborn := by
  cases List.mem_singleton.mp member
  exact ⟨rfl, rfl, rfl⟩

/-- A completed warp is the same after the tick of a warp of another block. -/
theorem warps_liveInStep_completed :
    ∃ completed : Warp,
      ended.warps = [completed] ∧ completed.state = .completed ∧
        (joined.stepped emptyKernel (.minimal 1)).warps[0]? =
          some completed := by
  have fresh : ∀ warp ∈ lone.warps, warp.Newborn := fun _ => narrow_newborn
  have first :
      lone.tick emptyKernel (.minimal 1) = .ok (ended, .minimal 1) := rfl
  obtain ⟨memory, second⟩ :=
    @tick_stepped _ _ emptyKernel (.minimal 1) joined rfl
  have final :=
    (warps_liveInStep fresh (.tick .start first)).2.1 _ _
      (.tick (.allocate .start fun _ => narrow_newborn) second)
  obtain ⟨warp, found, isFinal⟩ :=
    @Pointwise.origin _ _ _ _ _ 0 (some 0) final rfl
  obtain ⟨completed, alone, isCompleted⟩ :
      ∃ completed,
        ended.warps = [completed] ∧ completed.state = .completed :=
    ⟨_, rfl, rfl⟩
  have same : warp = completed :=
    isFinal 0 completed rfl (by rw [alone]; rfl) isCompleted
  exact ⟨completed, alone, isCompleted, same ▸ found⟩

end SM

end SimSm
