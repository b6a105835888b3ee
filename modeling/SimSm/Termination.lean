import Mathlib.Algebra.BigOperators.Ring.List
import SimSm.Library.Descent
import SimSm.Grids
import SimSm.LifeCycle
import SimSm.RaceFreedom
import SimSm.Timing

namespace SimSm

/-!
# Kernels without backward jumps end

A path of such a kernel, together with the paths that it defers, executes a
bounded number of instructions.  Every cycle of a multiprocessor either executes
an instruction or counts a stall down, so the run loop ends after a number of
iterations that the grid and the latencies bound.
-/

open InstructionExecutor

/-! ## The weight of paths -/

/-- Whether an instruction names a second place where control goes on. -/
def Opcode.isJump (opcode : Opcode) : Bool :=
  opcode == .branch || opcode == .ssy

namespace Kernel

/-- The second place where control goes on from a pc. -/
def jump? (kernel : Kernel) (pc : Nat) : Option Nat :=
  (kernel.fetch? pc).bind fun inst =>
    if inst.opcode.isJump then some (branchPc pc inst.immediate) else none

/-- Every branch and every `SSY` names a later pc. -/
def Forward (kernel : Kernel) : Prop :=
  ∀ pc < kernel.size, ∀ target ∈ kernel.jump? pc, pc < target

instance (kernel : Kernel) : Decidable kernel.Forward :=
  inferInstanceAs (Decidable (∀ pc < kernel.size, _))

/--
A bound on the instructions that a path executes from a pc on, together with
the paths that it leaves on the stack.
-/
def weightAt (kernel : Kernel) (pc : Nat) : Nat :=
  if pc < kernel.size then
    1 + weightAt kernel (pc + 1) +
      match kernel.jump? pc with
      | none => 0
      | some target => weightAt kernel (max (pc + 1) target)
  else
    1
  termination_by kernel.size - pc

section Weight

variable {kernel : Kernel}
variable {pc : Nat}

theorem weightAt_pos : 0 < kernel.weightAt pc := by
  unfold weightAt
  split <;> omega

/-- The next instruction leaves less to execute. -/
theorem weightAt_next
    (inside : pc < kernel.size) :
    kernel.weightAt (nextPc pc) < kernel.weightAt pc := by
  rw [nextPc_eq inside]
  conv_rhs => unfold weightAt
  rw [if_pos inside]
  omega

/-- Both continuations of a forward jump together leave less to execute. -/
theorem weightAt_jump
    (forward : kernel.Forward)
    (inside : pc < kernel.size)
    {target : Nat}
    (jumps : kernel.jump? pc = some target) :
    kernel.weightAt (nextPc pc) + kernel.weightAt target <
      kernel.weightAt pc := by
  have later : max (pc + 1) target = target :=
    max_eq_right (forward pc inside target jumps)
  rw [nextPc_eq inside]
  conv_rhs => unfold weightAt
  rw [if_pos inside, jumps]
  dsimp only
  rw [later]
  omega

end Weight

end Kernel

namespace PathState

/-- The weight of the path in execution and of those that wait. -/
def weight (kernel : Kernel) (state : PathState) : Nat :=
  kernel.weightAt state.current.pc +
    (state.pending.map fun path => kernel.weightAt path.pc).sum

section Weight

variable {kernel : Kernel}
variable {state next : PathState}
variable {inst : Instruction}

theorem weight_pos : 0 < state.weight kernel :=
  Nat.add_pos_left Kernel.weightAt_pos _

/-- A branch forward leaves less to execute. -/
theorem branch_weight
    (forward : kernel.Forward)
    (inside : state.current.pc < kernel.size)
    {target : Nat}
    (jumps : kernel.jump? state.current.pc = some target) :
    (state.branch target).weight kernel < state.weight kernel := by
  have both := Kernel.weightAt_jump forward inside jumps
  unfold branch
  split
  · simp only [weight, goto]
    omega
  · split
    · simp only [weight, goto]
      omega
    · simp only [weight, diverge, List.map_cons, List.sum_cons]
      omega

/-- An instruction leaves less to execute. -/
theorem execute_weight
    (forward : kernel.Forward)
    (fetched : kernel.fetch? state.current.pc = some inst)
    (executes : state.execute inst = some next) :
    next.weight kernel < state.weight kernel := by
  have inside := Kernel.fetch?_lt fetched
  have falls := Kernel.weightAt_next inside
  have jumps
      (isJump : inst.opcode.isJump = true) :
      kernel.jump? state.current.pc =
        some (branchPc state.current.pc inst.immediate) := by
    rw [Kernel.jump?, fetched, Option.bind_some, if_pos isJump]
  unfold execute at executes
  cases opcode : inst.opcode with
  | branch =>
      simp only [opcode, Option.some.injEq] at executes
      subst executes
      exact branch_weight forward inside (jumps (by rw [opcode]; rfl))
  | ssy =>
      simp only [opcode, Option.some.injEq] at executes
      subst executes
      have both :=
        Kernel.weightAt_jump forward inside (jumps (by rw [opcode]; rfl))
      simp only [weight, goto, List.map_cons, List.sum_cons]
      omega
  | sync =>
      simp only [opcode] at executes
      unfold sync at executes
      split at executes
      · cases executes
      · rename_i path rest pending
        cases executes
        have positive := @Kernel.weightAt_pos kernel state.current.pc
        simp only [weight, pending, List.map_cons, List.sum_cons]
        split
        · omega
        · omega
  | add | sub | mul | mov | load | store | cmp | barrier | atomicAdd
    | unknown =>
      simp only [opcode, Option.some.injEq] at executes
      subst executes
      simp only [weight, goto]
      omega

/-- Resuming a path drops the one that has ended. -/
theorem settle_weight
    (size : Nat)
    (state : PathState) :
    (state.settle size).weight kernel ≤ state.weight kernel := by
  unfold settle
  split
  · cases pending : state.pending with
    | nil => exact Nat.le_refl _
    | cons path rest =>
        simp only [weight, pending, List.map_cons, List.sum_cons]
        omega
  · exact Nat.le_refl _

end Weight

end PathState

/-! ## The work of a warp -/

namespace Warp

/-- The cycles that a warp may still need, when instructions take so many. -/
def work (kernel : Kernel) (cycles : Nat) (warp : Warp) : Nat :=
  if warp.state = .completed then
    0
  else
    warp.paths.weight kernel * cycles + warp.stallCyclesRemaining

section Work

variable {kernel : Kernel}
variable {cycles : Nat}
variable {before after warp : Warp}

/-- Work depends on the paths, the stall counter and on completion. -/
theorem work_congr
    (paths : after.paths = before.paths)
    (completed : after.state = .completed ↔ before.state = .completed)
    (stall : after.stallCyclesRemaining = before.stallCyclesRemaining) :
    after.work kernel cycles = before.work kernel cycles := by
  unfold work
  simp only [completed, paths, stall]

/-- Wait accounting keeps the work. -/
theorem accountWarp_work
    (selectedId : Option Nat)
    (counters : PerformanceCounter)
    (warp : Warp) :
    (SM.accountWarp selectedId counters warp).2.work kernel cycles =
      warp.work kernel cycles := by
  have accounted := SM.accountWarp_accounted selectedId counters warp
  refine work_congr accounted.core.paths ?_ (accountWarp_stall _ _ _)
  rw [accounted.state]

/-- A release from a barrier keeps the work. -/
theorem releaseFrom_work
    (blockId cycle : Nat)
    (warp : Warp) :
    (warp.releaseFrom blockId cycle).work kernel cycles =
      warp.work kernel cycles := by
  refine
    work_congr (SM.releaseFrom_core blockId cycle warp).paths ?_
      (releaseFrom_stall blockId cycle warp)
  rcases warp.releaseFrom_cases blockId cycle with same | ⟨waits, ready⟩
  · rw [same]
  · rw [waits, ready]
    exact iff_of_false nofun nofun

/-- A stalled warp counts its stall down and does not complete. -/
theorem tickStall_counts
    (stalled : warp.state = .stalled)
    (positive : 0 < warp.stallCyclesRemaining)
    (cycle : Nat) :
    (warp.tickStall cycle).stallCyclesRemaining =
        warp.stallCyclesRemaining - 1 ∧
      (warp.tickStall cycle).state ≠ .completed := by
  unfold tickStall
  rw [if_pos (And.intro stalled positive)]
  split
  · exact ⟨rfl, nofun⟩
  · refine ⟨rfl, ?_⟩
    rw [stalled]
    exact nofun

/-- Time takes work from a stalled warp. -/
theorem tickStall_work_lt
    (stalled : warp.state = .stalled)
    (positive : 0 < warp.stallCyclesRemaining)
    (cycle : Nat) :
    (warp.tickStall cycle).work kernel cycles < warp.work kernel cycles := by
  obtain ⟨counted, notCompleted⟩ := tickStall_counts stalled positive cycle
  have unfinished : warp.state ≠ .completed := by
    rw [stalled]
    exact nofun
  rw [work, work, if_neg notCompleted, if_neg unfinished, counted,
    (warp.tickStall_waited cycle).core.paths]
  omega

/-- Time does not add work. -/
theorem tickStall_work
    (cycle : Nat)
    (warp : Warp) :
    (warp.tickStall cycle).work kernel cycles ≤ warp.work kernel cycles := by
  by_cases stalled : warp.state = .stalled ∧ 0 < warp.stallCyclesRemaining
  · exact (tickStall_work_lt stalled.1 stalled.2 cycle).le
  · rw [tickStall, if_neg stalled]

/-- Settling stalls a warp for less than the latency. -/
theorem settle_stall
    (unburdened : warp.Unburdened)
    (result : ExecutionResult) :
    (SM.settle kernel result warp).stallCyclesRemaining ≤
      result.latency - 1 := by
  have none := unburdened.stall
  unfold SM.settle
  split
  · cases stack : warp.simtStack with
    | nil =>
        rw [popSimtStack, stack]
        dsimp only
        split
        · exact none.trans_le (Nat.zero_le _)
        · exact none.trans_le (Nat.zero_le _)
    | cons entry rest =>
        rw [popSimtStack, stack]
        exact none.trans_le (Nat.zero_le _)
  · split
    · rename_i slow
      rw [Warp.stall, if_pos (by omega)]
      exact Nat.le_refl _
    · exact none.trans_le (Nat.zero_le _)

/-- A warp that has executed an instruction has less work left. -/
theorem settle_work
    {result : ExecutionResult}
    {weight : Nat}
    (unburdened : warp.Unburdened)
    (lighter : warp.paths.weight kernel < weight)
    (positive : 0 < cycles)
    (bounded : result.latency ≤ cycles) :
    (SM.settle kernel result warp).work kernel cycles < weight * cycles := by
  have settled :
      (SM.settle kernel result warp).paths.weight kernel + 1 ≤ weight := by
    rw [SM.settle_paths]
    have resumed :
        (warp.paths.settle kernel.size).weight kernel ≤
          warp.paths.weight kernel :=
      PathState.settle_weight _ _
    omega
  have stall :
      (SM.settle kernel result warp).stallCyclesRemaining ≤
        result.latency - 1 :=
    settle_stall unburdened result
  have product := Nat.mul_le_mul_right cycles settled
  rw [Nat.add_mul, Nat.one_mul] at product
  unfold work
  split <;> omega

end Work

end Warp

/-! ## Policies -/

namespace Scheduler

/--
A usable policy is not blocked where a warp is ready, every other one is ready
or completed, and all have priorities above the lowest.
-/
theorem Usable.not_blocked_settled
    {scheduler : Scheduler}
    {warps : List Warp}
    {index : Nat}
    (usable : scheduler.Usable)
    (ready : ReadyAt warps index)
    (settled :
      ∀ warp ∈ warps,
        PriorityScheduler.lowest < warp.priority ∧
          (warp.state = .ready ∨ warp.state = .completed)) :
    ¬ scheduler.Blocked warps := by
  intro blocked
  cases scheduler with
  | roundRobin | greedy | oldestFirst | gto =>
      exact blocked
  | priority policy =>
      obtain ⟨warp, found, isReady⟩ := ready
      have member := List.mem_of_getElem? found
      exact
        Int.not_le.mpr (settled warp member).1
          (blocked warp member isReady)
  | twoLevel policy =>
      obtain ⟨full, noneReady⟩ := blocked
      have nonempty : policy.pruned warps ≠ [] := by
        rw [← List.length_pos_iff]
        exact Nat.lt_of_lt_of_le usable full
      obtain ⟨id, rest, shape⟩ := List.exists_cons_of_ne_nil nonempty
      have member : id ∈ policy.pruned warps := by
        rw [shape]
        exact List.mem_cons_self
      -- A pruned set keeps an id for its first warp, which is not completed.
      have unfinished := (List.mem_filter.mp member).2
      rw [TwoLevelScheduler.finished] at unfinished
      cases search : warps.find? fun warp => warp.warpId == id with
      | none => simp [search] at unfinished
      | some warp =>
          have isMember := List.mem_of_find?_eq_some search
          have sameId : warp.warpId = id := by
            simpa using List.find?_some search
          refine noneReady id member ⟨warp, isMember, sameId, ?_⟩
          refine (settled warp isMember).2.resolve_right fun completed => ?_
          simp [search, completed] at unfinished

end Scheduler

/-! ## The work of a multiprocessor -/

/-- What time does to the work of a warp. -/
structure Eases
    (kernel : Kernel)
    (cycles : Nat)
    (before after : Warp) : Prop where
  below : after.work kernel cycles ≤ before.work kernel cycles
  counts :
    before.state = .stalled →
    after.work kernel cycles < before.work kernel cycles

namespace SM

variable {σ : Type}

/-- The cycles that the warps of a multiprocessor may still need. -/
def work (kernel : Kernel) (cycles : Nat) (sm : SM σ) : Nat :=
  (sm.warps.map (Warp.work kernel cycles)).sum

/-- Nothing is issued and no warp counts a stall down. -/
structure Stuck [WarpScheduler σ] (sm : SM σ) : Prop where
  uncompleted : sm.isCompleted = false
  nothing : sm.issued? = none
  noStall : ∀ warp ∈ sm.warps, warp.state ≠ .stalled

section Ticks

variable {kernel : Kernel}
variable {cycles : Nat}
variable {memory memory' : MemorySystem}

/-- Counting stalls down eases every warp. -/
theorem tickStalls_eases
    {sm : SM σ}
    (inStep : sm.InStep) :
    List.Forall₂ (Eases kernel cycles) sm.warps sm.tickStalls.warps := by
  unfold tickStalls
  rw [List.forall₂_map_right_iff, List.forall₂_same]
  intro warp member
  exact
    ⟨Warp.tickStall_work _ warp, fun stalled =>
      Warp.tickStall_work_lt stalled
        ((inStep warp member).stall.mp stalled) _⟩

variable [WarpScheduler σ]

/-- Up to the issue, a tick eases every warp. -/
theorem timed_eases
    {sm : SM σ}
    (inStep : sm.InStep) :
    List.Forall₂ (Eases kernel cycles) sm.warps sm.timed := by
  unfold timed accountSelection
  dsimp only
  rw [accountWarps_warps, List.forall₂_map_right_iff]
  have stalls := @tickStalls_eases σ kernel cycles sm inStep
  refine stalls.imp fun before after eases => ⟨?_, fun stalled => ?_⟩
  · rw [Warp.accountWarp_work]
    exact eases.below
  · rw [Warp.accountWarp_work]
    exact eases.counts stalled

/-- The issued warp has less work left. -/
theorem IssueStep.own_work
    {warps after : List Warp}
    {index : Nat}
    {warp changed : Warp}
    (step : IssueStep kernel warps index warp memory after memory')
    (forward : kernel.Forward)
    (slowest : memory.config.slowestInstruction ≤ cycles)
    (unburdened : warp.Unburdened)
    (ready : warp.state = .ready)
    (found : after[index]? = some changed) :
    changed.work kernel cycles < warp.work kernel cycles := by
  have positive : 0 < cycles := by
    unfold MemoryAccessConfig.slowestInstruction at slowest
    omega
  have notCompleted : warp.state ≠ .completed := by
    rw [ready]
    exact nofun
  have executes
      {inst : Instruction}
      {result : ExecutionResult}
      {executed settling : Warp}
      {memory' : MemorySystem}
      (fetched : kernel.fetch? warp.warpPc = some inst)
      (ran : execute inst (warp, memory) = .ok result (executed, memory'))
      (paths : settling.paths = executed.paths)
      (light : settling.Unburdened) :
      (settle kernel result settling).work kernel cycles <
        warp.work kernel cycles := by
    obtain ⟨next, moved, current, pending⟩ := execute_control ran
    have lighter : settling.paths.weight kernel < warp.paths.weight kernel := by
      have less := PathState.execute_weight forward fetched moved
      rwa [PathState.weight, current, pending, ← PathState.weight, ← paths]
        at less
    have own :
        warp.work kernel cycles =
          warp.paths.weight kernel * cycles + warp.stallCyclesRemaining :=
      if_neg notCompleted
    rw [own]
    exact
      (Warp.settle_work light lighter positive
        ((latency_le ran).trans slowest)).trans_le (Nat.le_add_right _ _)
  obtain ⟨inside, _⟩ := List.getElem?_eq_some_iff.mp found
  cases step with
  | pastEnd _ =>
      rw [List.length_set] at inside
      rw [List.getElem?_set_self inside] at found
      cases found
      have none : warp.setCompleted.work kernel cycles = 0 := if_pos rfl
      rw [none, Warp.work, if_neg notCompleted]
      exact
        Nat.add_pos_left (Nat.mul_pos PathState.weight_pos positive) _
  | executed fetched ran _ =>
      rw [List.length_set] at inside
      rw [List.getElem?_set_self inside] at found
      cases found
      exact executes fetched ran rfl (unburdened.execute ran)
  | waits fetched ran _ _ =>
      rw [List.length_set] at inside
      rw [List.getElem?_set_self inside] at found
      cases found
      exact
        executes fetched ran rfl (unburdened.execute ran).setStalledAtBarrier
  | released cycle fetched ran _ _ =>
      rw [List.length_set] at inside
      rw [List.getElem?_set_self inside] at found
      cases found
      refine
        executes fetched ran ?_
          ((unburdened.execute ran).setStalledAtBarrier.releaseFrom _ _)
      exact (releaseFrom_core _ cycle _).paths

/-- Issuing another warp keeps the work of a warp. -/
theorem IssueStep.other_work
    {warps after : List Warp}
    {index position : Nat}
    {warp before changed : Warp}
    (step : IssueStep kernel warps index warp memory after memory')
    (elsewhere : position ≠ index)
    (found : warps[position]? = some before)
    (foundAfter : after[position]? = some changed) :
    changed.work kernel cycles = before.work kernel cycles := by
  rcases step.elsewhere elsewhere found foundAfter with
    rfl | ⟨blockId, cycle, rfl⟩
  · rfl
  · exact Warp.releaseFrom_work blockId cycle before

variable [LawfulWarpScheduler σ]

/-- Before it issues, a warp in step is neither stalled nor waiting. -/
theorem issued_unburdened
    {sm : SM σ}
    (inStep : sm.InStep)
    {index : Nat}
    {warp : Warp}
    (uncompleted : sm.isCompleted = false)
    (selected : sm.issued? = some (index, warp)) :
    warp.Unburdened := by
  have ready := issued?_ready selected
  have notStalled : warp.state ≠ .stalled := by
    rw [ready]
    exact nofun
  obtain ⟨_, _, lives⟩ :=
    Pointwise.origin inStep.timed (issued?_timed selected)
  exact
    ⟨notStalled, lives.inStep.unstalled notStalled,
      Accounting.issued?_wait uncompleted selected⟩

/--
A tick takes work from its multiprocessor, unless that is completed or stuck;
it never adds any.
-/
theorem tick_work
    {sm after : SM σ}
    (forward : kernel.Forward)
    (inStep : sm.InStep)
    (slowest : memory.config.slowestInstruction ≤ cycles)
    (scheduled : sm.scheduler.isSome = true)
    (uncompleted : sm.isCompleted = false)
    (ran : sm.tick kernel memory = .ok (after, memory')) :
    after.work kernel cycles < sm.work kernel cycles ∨
      after.work kernel cycles ≤ sm.work kernel cycles ∧ sm.Stuck := by
  cases ticking ran with
  | completed done =>
      rw [uncompleted] at done
      cases done
  | unscheduled _ none =>
      rw [none] at scheduled
      cases scheduled
  | idle _ _ nothing =>
      have eases := @timed_eases σ kernel cycles _ sm inStep
      unfold work
      rw [(idle_ledger sm.accounted).2.1]
      by_cases stalls : ∃ warp ∈ sm.warps, warp.state = .stalled
      · obtain ⟨warp, member, stalled⟩ := stalls
        obtain ⟨position, found⟩ := List.mem_iff_getElem?.mp member
        obtain ⟨timed, foundTimed, eased⟩ := Pointwise.partner eases found
        exact
          Or.inl
            (Descent.sum_lt eases (fun eased => eased.below) found
              foundTimed (eased.counts stalled))
      · refine
          Or.inr
            ⟨Descent.sum_le eases fun eased => eased.below, uncompleted,
              nothing, fun warp member stalled => ?_⟩
        exact stalls ⟨warp, member, stalled⟩
  | issued isRunning isScheduled selected issues =>
      rename_i index warp
      left
      have eases := @timed_eases σ kernel cycles _ sm inStep
      have isTimed := issued?_timed selected
      obtain ⟨_, _, step⟩ := issue_ok (by exact isTimed) issues
      have lengths : sm.timed.length = after.warps.length := by
        have same := congrArg List.length (step.identities isTimed)
        simpa only [List.length_map] using same.symm
      have own {changed : Warp} :=
        @IssueStep.own_work _ cycles _ _ _ _ _ _ changed step forward slowest
          (issued_unburdened inStep uncompleted selected)
          (issued?_ready selected)
      have moves :
          List.Forall₂
            (fun before after : Warp =>
              after.work kernel cycles ≤ before.work kernel cycles)
            sm.timed after.warps := by
        refine Pointwise.of_positions lengths ?_
        intro position before changed found foundAfter
        by_cases isIssued : position = index
        · subst isIssued
          rw [isTimed, Option.some.injEq] at found
          subst found
          exact (own foundAfter).le
        · exact (step.other_work isIssued found foundAfter).le
      have whole :
          List.Forall₂
            (fun before after : Warp =>
              after.work kernel cycles ≤ before.work kernel cycles)
            sm.warps after.warps :=
        Pointwise.compose eases moves fun eased below =>
          below.trans eased.below
      obtain ⟨before, found, eased⟩ := Pointwise.origin eases isTimed
      obtain ⟨changed, foundAfter, _⟩ := Pointwise.partner moves isTimed
      exact
        Descent.sum_lt whole (fun below => below) found foundAfter
          ((own foundAfter).trans_le eased.below)

end Ticks

end SM

/-! ## Warps that no barrier holds up -/

/-- A warp in step that waits at no barrier and that every policy sees. -/
structure Warp.Steady (warp : Warp) : Prop where
  inStep : warp.InStep
  notWaiting : warp.state ≠ .stalledAtBarrier
  priority : PriorityScheduler.lowest < warp.priority

namespace SM

/-- All warps are steady, and a usable scheduler selects among them. -/
structure Steady (sm : SM Scheduler) : Prop where
  warps : ∀ warp ∈ sm.warps, warp.Steady
  scheduled : ∃ scheduler, sm.scheduler = some scheduler ∧ scheduler.Usable

/-- Settling keeps the priority. -/
theorem settle_priority
    (kernel : Kernel)
    (result : ExecutionResult)
    (warp : Warp) :
    (settle kernel result warp).priority = warp.priority := by
  unfold settle
  split
  · cases stack : warp.simtStack with
    | nil =>
        rw [Warp.popSimtStack, stack]
        dsimp only
        split <;> rfl
    | cons entry rest =>
        rw [Warp.popSimtStack, stack]
        rfl
  · split
    · exact (stall_core warp _).priority
    · rfl

section Steady

variable {kernel : Kernel}
variable {sm after : SM Scheduler}
variable {memory memory' : MemorySystem}

/-- Without barriers, the issued warp stays clear of them. -/
theorem IssueStep.clear
    {warps after : List Warp}
    {index : Nat}
    {warp changed : Warp}
    (step : IssueStep kernel warps index warp memory after memory')
    (noBarrier : kernel.NoBarrier)
    (ready : warp.state = .ready)
    (found : after[index]? = some changed) :
    changed.state ≠ .stalledAtBarrier ∧
      changed.priority = warp.priority := by
  obtain ⟨inside, _⟩ := List.getElem?_eq_some_iff.mp found
  cases step with
  | pastEnd _ =>
      rw [List.length_set] at inside
      rw [List.getElem?_set_self inside] at found
      cases found
      exact ⟨nofun, rfl⟩
  | executed fetched ran _ =>
      rw [List.length_set] at inside
      rw [List.getElem?_set_self inside] at found
      cases found
      have shell := (execute_ok ran).shell
      refine
        ⟨(settle_isAt (shell.state.trans ready)).2, ?_⟩
      rw [settle_priority, shell.priority]
  | waits fetched _ barrier _ =>
      exact (noBarrier _ (Kernel.fetch?_mem fetched) barrier).elim
  | released _ fetched _ barrier _ =>
      exact (noBarrier _ (Kernel.fetch?_mem fetched) barrier).elim

/-- Without barriers, issuing a warp leaves the others as they are. -/
theorem IssueStep.others_eq
    {warps after : List Warp}
    {index position : Nat}
    {warp before changed : Warp}
    (step : IssueStep kernel warps index warp memory after memory')
    (noBarrier : kernel.NoBarrier)
    (elsewhere : position ≠ index)
    (found : warps[position]? = some before)
    (foundAfter : after[position]? = some changed) :
    changed = before := by
  cases step with
  | pastEnd _ | executed _ _ _ =>
      rw [List.getElem?_set_ne elsewhere.symm, found] at foundAfter
      exact (Option.some.inj foundAfter).symm
  | waits fetched _ barrier _ =>
      exact (noBarrier _ (Kernel.fetch?_mem fetched) barrier).elim
  | released _ fetched _ barrier _ =>
      exact (noBarrier _ (Kernel.fetch?_mem fetched) barrier).elim

/-- A tick keeps a multiprocessor steady. -/
theorem Steady.tick
    (noBarrier : kernel.NoBarrier)
    (steady : sm.Steady)
    (ran : sm.tick kernel memory = .ok (after, memory')) :
    after.Steady := by
  have inStep : sm.InStep := fun warp member =>
    (steady.warps warp member).inStep
  have lives := inStep.tick ran
  obtain ⟨scheduler, isScheduler, usable⟩ := steady.scheduled
  obtain ⟨_, next, step⟩ := tick_ok ran
  have timedSteady
      {position : Nat}
      {warp : Warp}
      {warps : List Warp}
      (waits : List.Forall₂ Waited sm.warps warps)
      (found : warps[position]? = some warp) :
      warp.state ≠ .stalledAtBarrier ∧
        PriorityScheduler.lowest < warp.priority := by
    obtain ⟨before, foundBefore, waited⟩ := Pointwise.origin waits found
    have was := steady.warps before (List.mem_of_getElem? foundBefore)
    refine ⟨fun waiting => ?_, ?_⟩
    · exact was.notWaiting (waited.atBarrier_iff.mp waiting)
    · rw [waited.core.priority]
      exact was.priority
  refine ⟨fun warp member => ?_, ?_⟩
  · obtain ⟨position, found⟩ := List.mem_iff_getElem?.mp member
    obtain ⟨_, _, lived⟩ := Pointwise.origin lives found
    have clear :
        warp.state ≠ .stalledAtBarrier ∧
          PriorityScheduler.lowest < warp.priority := by
      cases step with
      | quiet _ waits => exact timedSteady waits found
      | issued selected step =>
          rename_i index issued
          have isTimed := issued?_timed selected
          by_cases isIssued : position = index
          · subst isIssued
            obtain ⟨clear, priority⟩ :=
              step.clear noBarrier (issued?_ready selected) found
            rw [priority]
            exact ⟨clear, (timedSteady sm.timed_waited isTimed).2⟩
          · have inside := (List.getElem?_eq_some_iff.mp found).1
            have lengths := congrArg List.length (step.identities isTimed)
            rw [List.length_map, List.length_map] at lengths
            have foundTimed :=
              List.getElem?_eq_getElem (lengths ▸ inside)
            rw [step.others_eq noBarrier isIssued foundTimed found]
            exact timedSteady sm.timed_waited foundTimed
    exact ⟨lived.inStep, clear.1, clear.2⟩
  · rw [next, rescheduled, isScheduler]
    split
    · exact ⟨scheduler, rfl, usable⟩
    · exact ⟨_, rfl, usable.selectWarp _⟩

/-- Where nothing stalls, a usable scheduler has something to select. -/
theorem Steady.not_stuck (steady : sm.Steady) : ¬ sm.Stuck := by
  rintro ⟨uncompleted, nothing, noStall⟩
  obtain ⟨scheduler, isScheduler, usable⟩ := steady.scheduled
  have settled
      {warp : Warp}
      (member : warp ∈ sm.tickStalls.warps) :
      PriorityScheduler.lowest < warp.priority ∧
        (warp.state = .ready ∨ warp.state = .completed) := by
    obtain ⟨position, found⟩ := List.mem_iff_getElem?.mp member
    obtain ⟨before, foundBefore, waited⟩ :=
      Pointwise.origin sm.tickStalls_waited found
    have isMember := List.mem_of_getElem? foundBefore
    have was := steady.warps before isMember
    refine ⟨by rw [waited.core.priority]; exact was.priority, ?_⟩
    have same : warp.state = before.state :=
      waited.state.resolve_right fun woken =>
        noStall before isMember woken.1
    rw [same]
    cases state : before.state with
    | ready => exact Or.inl rfl
    | completed => exact Or.inr rfl
    | stalled => exact (noStall before isMember state).elim
    | stalledAtBarrier => exact (was.notWaiting state).elim
  obtain ⟨warp, member, unfinished⟩ := exists_uncompleted uncompleted
  obtain ⟨index, found⟩ := List.mem_iff_getElem?.mp member
  obtain ⟨stalled, foundStalled, waited⟩ :=
    Pointwise.partner sm.tickStalls_waited found
  have isReady : stalled.state = .ready := by
    refine (settled (List.mem_of_getElem? foundStalled)).2.resolve_right ?_
    rw [waited.completed_iff]
    exact unfinished
  have readyAt : ReadyAt sm.tickStalls.warps index :=
    ⟨stalled, foundStalled, isReady⟩
  have notBlocked : ¬ scheduler.Blocked sm.tickStalls.warps :=
    usable.not_blocked_settled readyAt fun other isOther => settled isOther
  have selects := (Scheduler.selectWarp_isSome_iff readyAt).mpr notBlocked
  obtain ⟨selected, selection⟩ := Option.isSome_iff_exists.mp selects
  obtain ⟨chosen, foundChosen, _⟩ := Scheduler.selectWarp_ready selection
  have accounted :
      List.Forall₂ Accounted sm.tickStalls.warps sm.timed :=
    accountWarps_accounted _ _ _
  obtain ⟨issued, foundIssued, _⟩ := Pointwise.partner accounted foundChosen
  have isSelected : sm.selected? = some selected := by
    rw [selected?, isScheduler]
    exact selection
  rw [issued?, uncompleted, isSelected] at nothing
  simp [foundIssued] at nothing

end Steady

end SM

/-! ## Loading blocks -/

/-- The warps of a built block are new and may be selected by priority. -/
theorem Barrier.Built.fresh
    {block : ThreadBlock}
    (built : Barrier.Built block)
    (few : block.warps.length ≤ 2 ^ 31) :
    ∀ warp ∈ block.warps,
      warp.Newborn ∧ PriorityScheduler.lowest < warp.priority := by
  intro warp member
  obtain ⟨position, found⟩ := List.mem_iff_getElem?.mp member
  have inside := (List.getElem?_eq_some_iff.mp found).1
  obtain ⟨threads, _, _, isBuilt⟩ := built position warp found
  obtain ⟨mask, shape⟩ := Warp.ofThreads_shape position threads
  have nonnegative : 0 ≤ toInt32 position := by
    rw [toInt32_of_lt (lt_of_lt_of_le inside few)]
    exact Int.natCast_nonneg _
  have belowZero : PriorityScheduler.lowest < 0 := by decide
  rcases isBuilt with rfl | rfl
  · rw [shape]
    exact ⟨⟨rfl, rfl, rfl⟩, belowZero⟩
  · rw [shape]
    exact ⟨⟨rfl, rfl, rfl⟩, lt_of_lt_of_le belowZero nonnegative⟩

/--
The iterations in which a run ends when every instruction takes as long as the
slowest one.
-/
def Grid.iterationBound
    (grid : Grid)
    (kernel : Kernel)
    (config : SystemConfig) :
    Nat :=
  ((grid.blocks.flatMap ThreadBlock.warps).map
      fun warp => warp.paths.weight kernel).sum *
    config.memoryAccessConfig.slowestInstruction

namespace GPU

variable {σ : Type}
variable {kernel : Kernel}
variable {cycles : Nat}
variable {config : SystemConfig}
variable {req : KernelResourceRequirements}

/-- The warps of multiprocessors and of pending blocks. -/
def warpsOf (sms : List (SM σ)) (pending : List ThreadBlock) : List Warp :=
  sms.flatMap SM.warps ++ pending.flatMap ThreadBlock.warps

/-- All warps of a GPU that are resident or still to be dispatched. -/
def warps (gpu : GPU σ) : List Warp :=
  warpsOf gpu.sms gpu.remaining

/-- Admitted blocks add their warps and keep the scheduler. -/
theorem admitAll_warps
    (blocks : List ThreadBlock)
    (sm : SM σ) :
    (admitAll req sm blocks).warps =
        sm.warps ++ blocks.flatMap ThreadBlock.warps ∧
      (admitAll req sm blocks).scheduler = sm.scheduler := by
  induction blocks generalizing sm with
  | nil => exact ⟨(List.append_nil _).symm, rfl⟩
  | cons block rest inductionHypothesis =>
      have admits := SM.allocateBlock_admits sm block req
      obtain ⟨warps, scheduler⟩ :=
        inductionHypothesis (sm.allocateBlock block req)
      change (admitAll req (sm.allocateBlock block req) rest).warps = _ ∧
        (admitAll req (sm.allocateBlock block req) rest).scheduler = _
      rw [warps, scheduler, admits.warps, admits.scheduler,
        List.flatMap_cons, List.append_assoc]
      exact ⟨rfl, rfl⟩

/-- Dispatching moves warps from the pending blocks to multiprocessors. -/
theorem dispatchAll_warps
    {prepare : SM σ → SM σ}
    {sms after : List (SM σ)}
    {pending rest : List ThreadBlock}
    (ran : dispatchAll config req prepare sms pending = .ok (after, rest)) :
    (∃ taken, taken ++ rest = pending) ∧
      (warpsOf after rest).Perm (warpsOf (sms.map prepare) pending) ∧
      List.Forall₂
        (fun before after : SM σ =>
          ∃ admitted, after = admitAll req (prepare before) admitted)
        sms after := by
  induction sms generalizing pending after with
  | nil =>
      cases ran
      exact ⟨⟨[], rfl⟩, List.Perm.refl _, .nil⟩
  | cons sm others inductionHypothesis =>
      rw [dispatchAll] at ran
      obtain ⟨⟨loaded, left⟩, first, next⟩ := Outcome.except_bind_ok.mp ran
      obtain ⟨⟨loadedOthers, _⟩, later, returned⟩ :=
        Outcome.except_bind_ok.mp next
      cases returned
      obtain ⟨admitted, rfl, rfl⟩ := dispatch_admits first
      obtain ⟨⟨taken, rfl⟩, moved, admissions⟩ := inductionHypothesis later
      obtain ⟨warps, _⟩ := @admitAll_warps _ req admitted (prepare sm)
      refine
        ⟨⟨admitted ++ taken, List.append_assoc _ _ _⟩, ?_,
          .cons ⟨admitted, rfl⟩ admissions⟩
      unfold warpsOf at moved ⊢
      simp only [List.flatMap_cons, List.map_cons, List.flatMap_append,
        warps, List.append_assoc] at moved ⊢
      refine List.Perm.append_left _ ?_
      refine (List.Perm.append_left _ moved).trans ?_
      exact List.perm_append_comm_assoc _ _ _

/-- Loading blocks moves warps; each multiprocessor admits some. -/
theorem loadBlocks_warps
    {gpu after : GPU σ}
    {prepare : SM σ → SM σ}
    (ran : gpu.loadBlocks prepare = .ok after) :
    after.warps.Perm (warpsOf (gpu.sms.map prepare) gpu.remaining) ∧
      after.config = gpu.config ∧
      List.Forall₂
        (fun before after : SM σ =>
          ∃ admitted, after = admitAll gpu.req (prepare before) admitted)
        gpu.sms after.sms := by
  obtain ⟨⟨sms, rest⟩, dispatches, returned⟩ :=
    Outcome.except_bind_ok.mp ran
  obtain ⟨⟨taken, suffix⟩, moved, admissions⟩ := dispatchAll_warps dispatches
  cases returned
  refine ⟨?_, rfl, admissions⟩
  have order :
      gpu.pendingBlocks.take gpu.currentBlockIdx ++ taken ++ rest =
        gpu.pendingBlocks := by
    rw [List.append_assoc, suffix]
    exact List.take_append_drop _ _
  unfold warps
  rw [@remaining_after _ gpu sms _ _ order]
  exact moved

/-- A release drops completed warps only. -/
theorem release_warps
    {sm : SM σ}
    {warp : Warp}
    (member : warp ∈ sm.warps)
    (unfinished : warp.state ≠ .completed) :
    (!(SM.finishedBlocks sm.warps sm.residentBlocks).any fun block =>
        SM.belongsTo warp block.blockId) = true := by
  rw [Bool.not_eq_true', ← Bool.not_eq_true, List.any_eq_true]
  rintro ⟨block, finished, belongs⟩
  have isFinished := (SM.mem_finishedBlocks.mp finished).2
  rw [← Bool.not_eq_false, SM.allCompleted_eq_false] at isFinished
  refine isFinished ⟨warp, member, ?_, unfinished⟩
  simpa [SM.belongsTo] using belongs

/-- Dropping elements that count nothing keeps a total. -/
theorem sum_filter_eq
    {α : Type}
    {keep : α → Bool}
    {size : α → Nat}
    {elements : List α}
    (dropsNothing :
      ∀ element ∈ elements, size element ≠ 0 → keep element = true) :
    ((elements.filter keep).map size).sum = (elements.map size).sum := by
  induction elements with
  | nil => rfl
  | cons first rest inductionHypothesis =>
      rw [List.forall_mem_cons] at dropsNothing
      have others := inductionHypothesis dropsNothing.2
      rw [List.filter_cons]
      cases kept : keep first with
      | true => simp [others]
      | false =>
          have nothing : size first = 0 := by
            by_contra counts
            rw [dropsNothing.1 counts] at kept
            cases kept
          simp [others, nothing]

/-- A release keeps a total to which completed warps add nothing. -/
theorem release_sum
    {size : Warp → Nat}
    (rests : ∀ warp : Warp, warp.state = .completed → size warp = 0)
    (sm : SM σ) :
    (sm.releaseCompletedBlocks.warps.map size).sum =
      (sm.warps.map size).sum := by
  rw [SM.releaseCompletedBlocks_eq]
  refine sum_filter_eq fun warp member counts => release_warps member ?_
  exact fun completed => counts (rests warp completed)

/-- The cycles that a GPU may still need to finish its grid. -/
def work (kernel : Kernel) (cycles : Nat) (gpu : GPU σ) : Nat :=
  (gpu.warps.map (Warp.work kernel cycles)).sum

/-- A total over multiprocessors and pending blocks, part by part. -/
theorem sum_warpsOf
    (size : Warp → Nat)
    (sms : List (SM σ))
    (pending : List ThreadBlock) :
    ((warpsOf sms pending).map size).sum =
      (sms.map fun sm => (sm.warps.map size).sum).sum +
        ((pending.flatMap ThreadBlock.warps).map size).sum := by
  unfold warpsOf
  rw [List.map_append, List.sum_append]
  congr 1
  induction sms with
  | nil => rfl
  | cons sm rest inductionHypothesis =>
      rw [List.flatMap_cons, List.map_append, List.sum_append,
        inductionHypothesis, List.map_cons, List.sum_cons]

/-- A refill keeps a total to which completed warps add nothing. -/
theorem refill_sum
    {size : Warp → Nat}
    (rests : ∀ warp : Warp, warp.state = .completed → size warp = 0)
    {gpu after : GPU σ}
    (refills : gpu.refill = .ok after) :
    (after.warps.map size).sum = (gpu.warps.map size).sum := by
  obtain ⟨moved, _⟩ := loadBlocks_warps refills
  rw [(moved.map _).sum_eq, sum_warpsOf, warps, sum_warpsOf,
    List.map_map]
  congr 2
  exact List.map_congr_left fun sm _ => release_sum rests sm

/-- A refill neither adds nor takes work. -/
theorem refill_work
    {gpu after : GPU σ}
    (refills : gpu.refill = .ok after) :
    after.work kernel cycles = gpu.work kernel cycles :=
  refill_sum (fun _ completed => if_pos completed) refills

/-! ## Iterations -/

/-- Every warp is steady, and every multiprocessor has a usable scheduler. -/
structure Steady (gpu : GPU Scheduler) : Prop where
  warps : ∀ warp ∈ gpu.warps, warp.Steady
  scheduled :
    ∀ sm ∈ gpu.sms,
      ∃ scheduler, sm.scheduler = some scheduler ∧ scheduler.Usable

section Steady

variable {gpu after : GPU Scheduler}

/-- The multiprocessors of a steady GPU are steady. -/
theorem Steady.sm
    (steady : gpu.Steady)
    {sm : SM Scheduler}
    (member : sm ∈ gpu.sms) :
    sm.Steady := by
  refine ⟨fun warp isWarp => steady.warps warp ?_, steady.scheduled sm member⟩
  exact List.mem_append_left _ (List.mem_flatMap.mpr ⟨sm, member, isWarp⟩)

/-- Loading blocks keeps a GPU steady whose prepared parts are. -/
theorem Steady.loadBlocks
    {prepare : SM Scheduler → SM Scheduler}
    (warps :
      ∀ warp ∈ warpsOf (gpu.sms.map prepare) gpu.remaining, warp.Steady)
    (scheduled :
      ∀ sm ∈ gpu.sms,
        ∃ scheduler,
          (prepare sm).scheduler = some scheduler ∧ scheduler.Usable)
    (ran : gpu.loadBlocks prepare = .ok after) :
    after.Steady := by
  obtain ⟨moved, _, admissions⟩ := loadBlocks_warps ran
  refine
    ⟨fun warp member => warps warp (moved.mem_iff.mp member), ?_⟩
  intro sm member
  obtain ⟨position, found⟩ := List.mem_iff_getElem?.mp member
  obtain ⟨before, foundBefore, admitted, rfl⟩ :=
    Pointwise.origin admissions found
  rw [(admitAll_warps _ _).2]
  exact scheduled before (List.mem_of_getElem? foundBefore)

/-- A refill keeps a GPU steady. -/
theorem Steady.refill
    (steady : gpu.Steady)
    (refills : gpu.refill = .ok after) :
    after.Steady := by
  refine .loadBlocks (fun warp member => ?_) (fun sm isSm => ?_) refills
  · rcases List.mem_append.mp member with resident | pending
    · obtain ⟨released, isReleased, isWarp⟩ := List.mem_flatMap.mp resident
      obtain ⟨sm, isSm, rfl⟩ := List.mem_map.mp isReleased
      rw [SM.releaseCompletedBlocks_eq] at isWarp
      exact (steady.sm isSm).warps warp (List.mem_of_mem_filter isWarp)
    · exact steady.warps warp (List.mem_append_right _ pending)
  · rw [SM.releaseCompletedBlocks_eq]
    exact steady.scheduled sm isSm

/-- A tick phase keeps multiprocessors steady and takes work from them. -/
theorem tickSms_work
    (noBarrier : kernel.NoBarrier)
    (forward : kernel.Forward)
    {memoryConfig : MemoryAccessConfig}
    (slowest : memoryConfig.slowestInstruction ≤ cycles)
    {sms after : List (SM Scheduler)}
    {l2Cache l2Cache' : Cache}
    {globalMemory globalMemory' : GlobalMemory}
    {allDone : Bool}
    (steady : ∀ sm ∈ sms, sm.Steady)
    (ran :
      tickSms kernel memoryConfig sms l2Cache globalMemory =
        .ok (allDone, after, l2Cache', globalMemory')) :
    (∀ sm ∈ after, sm.Steady) ∧
      (after.map (SM.work kernel cycles)).sum ≤
        (sms.map (SM.work kernel cycles)).sum ∧
      (allDone = false →
        (after.map (SM.work kernel cycles)).sum <
          (sms.map (SM.work kernel cycles)).sum) := by
  induction sms generalizing after l2Cache globalMemory allDone with
  | nil =>
      cases ran
      exact ⟨steady, Nat.le_refl _, nofun⟩
  | cons sm others inductionHypothesis =>
      rw [List.forall_mem_cons] at steady
      unfold tickSms at ran
      split at ran
      · obtain ⟨⟨_, tickedOthers, _, _⟩, later, returned⟩ :=
          Outcome.except_bind_ok.mp ran
        cases returned
        obtain ⟨steadyOthers, below, less⟩ :=
          inductionHypothesis steady.2 later
        simp only [List.forall_mem_cons, List.map_cons, List.sum_cons]
        exact
          ⟨⟨steady.1, steadyOthers⟩, Nat.add_le_add_left below _,
            fun running => Nat.add_lt_add_left (less running) _⟩
      · rename_i uncompleted
        rw [Bool.not_eq_true] at uncompleted
        obtain ⟨⟨tickedSm, _, _⟩, now, next⟩ :=
          Outcome.except_bind_ok.mp ran
        obtain ⟨⟨_, tickedOthers, _, _⟩, later, returned⟩ :=
          Outcome.except_bind_ok.mp next
        cases returned
        obtain ⟨⟨ticked, memory'⟩, ticks, returned⟩ :=
          Outcome.except_bind_ok.mp now
        cases returned
        obtain ⟨steadyOthers, below, _⟩ :=
          inductionHypothesis steady.2 later
        have steadyTicked := steady.1.tick noBarrier ticks
        obtain ⟨scheduler, isScheduler, _⟩ := steady.1.scheduled
        have less :=
          (SM.tick_work forward
            (fun warp member => (steady.1.warps warp member).inStep)
            slowest (by rw [isScheduler]; rfl) uncompleted
            ticks).resolve_right fun stuck => steady.1.not_stuck stuck.2
        simp only [List.forall_mem_cons, List.map_cons, List.sum_cons]
        have total := Nat.add_lt_add_of_lt_of_le less below
        exact
          ⟨⟨⟨steadyTicked.warps, steadyTicked.scheduled⟩, steadyOthers⟩,
            total.le, fun _ => total⟩

/-- An iteration keeps a GPU steady and takes work from it. -/
theorem Steady.iterate
    (noBarrier : kernel.NoBarrier)
    (forward : kernel.Forward)
    (steady : gpu.Steady)
    (slowest :
      gpu.config.memoryAccessConfig.slowestInstruction ≤ cycles)
    {allDone : Bool}
    (ran : gpu.iterate kernel = .ok (allDone, after)) :
    after.Steady ∧ after.config = gpu.config ∧
      (allDone = false →
        after.work kernel cycles < gpu.work kernel cycles) := by
  obtain ⟨refilled, refills, rest⟩ := Outcome.except_bind_ok.mp ran
  obtain ⟨⟨done, sms, l2Cache, globalMemory⟩, ticks, returned⟩ :=
    Outcome.except_bind_ok.mp rest
  cases returned
  have steadyRefilled := steady.refill refills
  have sameConfig := (loadBlocks_warps refills).2.1
  rw [← sameConfig] at slowest ⊢
  obtain ⟨steadySms, _, less⟩ :=
    tickSms_work noBarrier forward slowest
      (fun sm member => steadyRefilled.sm member) ticks
  refine ⟨⟨fun warp member => ?_, fun sm member => ?_⟩, rfl, fun running => ?_⟩
  · rcases List.mem_append.mp member with resident | pending
    · obtain ⟨sm, isSm, isWarp⟩ := List.mem_flatMap.mp resident
      exact (steadySms sm isSm).warps warp isWarp
    · exact
        steadyRefilled.warps warp (List.mem_append_right _ pending)
  · exact (steadySms sm member).scheduled
  · rw [← refill_work refills, work, work, GPU.warps, GPU.warps,
      sum_warpsOf, sum_warpsOf]
    exact Nat.add_lt_add_right (less running) _

/-- The run loop returns after no more iterations than there is work. -/
theorem Steady.returns
    (noBarrier : kernel.NoBarrier)
    (forward : kernel.Forward)
    {fuel : Nat}
    (steady : gpu.Steady)
    (slowest :
      gpu.config.memoryAccessConfig.slowestInstruction ≤ cycles)
    (enough : gpu.work kernel cycles < fuel) :
    ∃ outcome, runToCompletion kernel fuel gpu = some outcome := by
  induction fuel generalizing gpu with
  | zero => exact (Nat.not_lt_zero _ enough).elim
  | succ fuel inductionHypothesis =>
      unfold runToCompletion
      cases iterates : gpu.iterate kernel with
      | error error => exact ⟨_, rfl⟩
      | ok pair =>
          rcases pair with ⟨allDone, after⟩
          obtain ⟨steadyAfter, sameConfig, less⟩ :=
            steady.iterate noBarrier forward slowest iterates
          cases allDone with
          | true => exact ⟨_, rfl⟩
          | false =>
              rw [← sameConfig] at slowest
              have lessWork := less rfl
              exact inductionHypothesis steadyAfter slowest (by omega)

/-- A launched GPU is steady and has the work of its grid. -/
theorem launch_steady
    {grid : Grid}
    (scheduled :
      ∀ sm ∈ gpu.sms,
        ∃ scheduler, sm.scheduler = some scheduler ∧ scheduler.Usable)
    (fresh :
      ∀ block ∈ grid.blocks,
        ∀ warp ∈ block.warps,
          warp.Newborn ∧ PriorityScheduler.lowest < warp.priority)
    (launches : gpu.launchKernel grid config req = .ok after) :
    after.Steady ∧ after.config = config ∧
      after.warps.Perm (grid.blocks.flatMap ThreadBlock.warps) := by
  obtain ⟨moved, sameConfig, _⟩ := loadBlocks_warps launches
  have cleared :
      warpsOf (gpu.sms.map SM.clearWarps) grid.blocks =
        grid.blocks.flatMap ThreadBlock.warps := by
    unfold warpsOf
    rw [List.flatMap_eq_nil_iff.mpr, List.nil_append]
    intro sm member
    obtain ⟨_, _, rfl⟩ := List.mem_map.mp member
    rfl
  have isMoved :
      after.warps.Perm (warpsOf (gpu.sms.map SM.clearWarps) grid.blocks) :=
    moved
  rw [cleared] at isMoved
  refine
    ⟨@Steady.loadBlocks
        { gpu with
          config := config
          req := req
          pendingBlocks := grid.blocks
          currentBlockIdx := 0 }
        after SM.clearWarps (fun warp member => ?_) scheduled launches,
      sameConfig, isMoved⟩
  have isGrid :
      warp ∈ warpsOf (gpu.sms.map SM.clearWarps) grid.blocks :=
    member
  rw [cleared, List.mem_flatMap] at isGrid
  obtain ⟨block, isBlock, isWarp⟩ := isGrid
  obtain ⟨newborn, priority⟩ := fresh block isBlock warp isWarp
  refine ⟨newborn.unburdened.inStep, ?_, priority⟩
  rw [newborn.state]
  exact nofun

/-- The run loop after a launch ends. -/
theorem launched_returns
    {grid : Grid}
    (noBarrier : kernel.NoBarrier)
    (forward : kernel.Forward)
    (scheduled :
      ∀ sm ∈ gpu.sms,
        ∃ scheduler, sm.scheduler = some scheduler ∧ scheduler.Usable)
    (fresh :
      ∀ block ∈ grid.blocks,
        ∀ warp ∈ block.warps,
          warp.Newborn ∧ PriorityScheduler.lowest < warp.priority)
    (launches : gpu.launchKernel grid config req = .ok after)
    {fuel : Nat}
    (enough : grid.iterationBound kernel config < fuel) :
    ∃ outcome, runToCompletion kernel fuel after = some outcome := by
  obtain ⟨steady, sameConfig, moved⟩ :=
    launch_steady scheduled fresh launches
  have total :
      after.work kernel config.memoryAccessConfig.slowestInstruction =
        grid.iterationBound kernel config := by
    rw [work, Grid.iterationBound, (moved.map _).sum_eq,
      ← List.sum_map_mul_right]
    congr 1
    refine List.map_congr_left fun warp member => ?_
    obtain ⟨block, isBlock, isWarp⟩ := List.mem_flatMap.mp member
    have newborn := (fresh block isBlock warp isWarp).1
    have notCompleted : warp.state ≠ .completed := by
      rw [newborn.state]
      exact nofun
    rw [Warp.work, if_neg notCompleted, newborn.stall, Nat.add_zero]
  refine steady.returns noBarrier forward ?_ (total.trans_lt enough)
  rw [sameConfig]

/--
Every run of a kernel without barriers and without backward jumps ends, normally
or by an exception, on every configuration and under every policy that can
select: it takes no more iterations than the weights of the warps' paths allow
when every instruction takes as long as the slowest one.
-/
theorem forward_returns
    {grid : Grid}
    (noBarrier : kernel.NoBarrier)
    (forward : kernel.Forward)
    (scheduled :
      ∀ sm ∈ gpu.sms,
        ∃ scheduler, sm.scheduler = some scheduler ∧ scheduler.Usable)
    (fresh :
      ∀ block ∈ grid.blocks,
        ∀ warp ∈ block.warps,
          warp.Newborn ∧ PriorityScheduler.lowest < warp.priority)
    {fuel : Nat}
    (enough : grid.iterationBound kernel config < fuel) :
    ∃ outcome,
      gpu.launchAndRun grid config req kernel fuel = some outcome := by
  unfold launchAndRun
  cases launches : gpu.launchKernel grid config req with
  | error error => exact ⟨_, rfl⟩
  | ok launched =>
      exact
        launched_returns noBarrier forward scheduled fresh launches enough

/-- A kernel in which a lane whose `R0` is zero skips two moves. -/
def splitKernel : Kernel where
  instructions := Benchmarks.guarded 0 [Benchmarks.mov 1 5, Benchmarks.mov 2 7]
  lengthFits := by decide

/-- Two lanes of which one has a zero in `R0`. -/
def splitGrid : Grid :=
  (Benchmarks.buildBenchmarkGrid 2 2 2 false).toOption.getD ⟨[]⟩

/-- A diverging warp ends under a policy with room for one warp. -/
theorem forward_returns_one_active :
    ∃ outcome,
      launchAndRun
          { single { roomyConfig with warpSize := 2, blockSize := 2 } with
            sms := [SM.vacantWith (Barrier.activeOf 1)] }
          splitGrid { roomyConfig with warpSize := 2, blockSize := 2 }
          ⟨1, 0⟩ splitKernel
          (splitGrid.iterationBound splitKernel
              { roomyConfig with warpSize := 2, blockSize := 2 } +
            1) =
        some outcome := by
  refine
    forward_returns (by decide) (by decide +kernel) ?_ ?_ (Nat.lt_succ_self _)
  · intro sm member
    rw [List.mem_singleton.mp member]
    exact ⟨_, rfl, Nat.le_refl 1⟩
  · intro block member
    have built : Benchmarks.buildBenchmarkGrid 2 2 2 false = .ok splitGrid :=
      Outcome.except_ok_getD (by decide +kernel)
    refine
      (Benchmarks.buildBenchmarkGrid_built Nat.two_pos built block member).fresh
        ?_
    have short :
        splitGrid.blocks.all (fun block => block.warps.length ≤ 2 ^ 31) =
          true := by
      decide +kernel
    exact of_decide_eq_true (List.all_eq_true.mp short block member)

end Steady

end GPU

end SimSm
