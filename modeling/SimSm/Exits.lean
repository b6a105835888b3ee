import SimSm.Reconvergence
import SimSm.SingleWarp
import SimSm.Tick

namespace SimSm

/-!
# Lanes that have exited

A lane exits when the pc of its warp moves past the end of the kernel while the
lane is active.  Two places resume waiting paths: `SYNC` in the executor, and
the pop at the end of the kernel in the tick.  Neither asks whether the lanes
of the path have exited, so an `SSY` token brings back the lanes that exit
inside its region.  Without such exits, no exited lane executes again.
-/

open InstructionExecutor Reconvergence

namespace Exits

/-- The lanes of a warp whose pc is past the end of the kernel. -/
def pastEnd (kernel : Kernel) (warp : Warp) : ActiveMask :=
  if kernel.size ≤ warp.warpPc then warp.activeMask else 0

/--
The lanes that exit when a warp is issued: those of the path that it executes,
and those of the path that it resumes at the end of the kernel.
-/
def exitedBy
    (kernel : Kernel)
    (memory : MemorySystem)
    (warp : Warp) :
    ActiveMask :=
  match kernel.fetch? warp.warpPc with
  | none => 0
  | some inst =>
      match execute inst (warp, memory) with
      | .error _ _ => 0
      | .ok result (executed, _) =>
          pastEnd kernel executed |||
            pastEnd kernel (SM.settle kernel result executed)

/-- The lanes of the warp at a position that exit in a tick. -/
def exitedAt
    [WarpScheduler σ]
    (kernel : Kernel)
    (position : Nat)
    (memory : MemorySystem)
    (sm : SM σ) :
    ActiveMask :=
  match sm.issued? with
  | none => 0
  | some (index, warp) =>
      if index = position then exitedBy kernel memory warp else 0

/-- A multiprocessor and the lanes of one of its warps that have exited. -/
structure Watch (σ : Type) where
  sm : SM σ
  exited : ActiveMask

variable {σ : Type} [WarpScheduler σ]

/-- A tick that throws nothing, watched at the warp at a position. -/
def Watch.Tick
    (kernel : Kernel)
    (position : Nat)
    (before after : Watch σ) : Prop :=
  ∃ memory memory',
    before.sm.tick kernel memory = .ok (after.sm, memory') ∧
      after.exited =
        before.exited |||
          exitedAt kernel position memory before.sm

/-- The instruction executed next, if it is the warp's, has no exited lane. -/
def StayOut (kernel : Kernel) (position : Nat) (watch : Watch σ) : Prop :=
  ∀ {warp : Warp} {lane : Nat},
    watch.sm.issued? = some (position, warp) →
    warp.warpPc < kernel.size →
    watch.exited.getLsbD lane = true →
    warp.activeMask.getLsbD lane = false

/--
The next instruction ends the path of some lanes while another path holds one
of them, and the warp goes on: a region is left without its `SYNC`.
-/
def EndsInRegion (kernel : Kernel) (warp : Warp) : Prop :=
  ∃ next ∈
      (kernel.fetch? warp.warpPc).bind fun inst => warp.paths.execute inst,
    kernel.size ≤ next.current.pc ∧
      (∃ resumed ∈ next.pending.head?, resumed.pc < kernel.size) ∧
      ∃ waiting ∈ next.pending,
        waiting.pc < kernel.size ∧
          waiting.mask &&& next.current.mask ≠ 0

instance (kernel : Kernel) (warp : Warp) :
    Decidable (EndsInRegion kernel warp) :=
  inferInstanceAs (Decidable (∃ _ ∈ _, _ ∧ _ ∧ _))

/-- A tick that does not issue the warp to leave a region by ending. -/
def Watch.GuardedTick
    (kernel : Kernel)
    (position : Nat)
    (before after : Watch σ) : Prop :=
  (∀ {warp : Warp},
      before.sm.issued? = some (position, warp) →
      ¬ EndsInRegion kernel warp) ∧
    before.Tick kernel position after

/-! ## No path inside the kernel has an exited lane -/

/-- Neither the current path nor a waiting one executes for a lane. -/
structure Out (kernel : Kernel) (lane : Nat) (warp : Warp) : Prop where
  current :
    warp.warpPc < kernel.size → warp.activeMask.getLsbD lane = false
  waiting :
    ∀ entry ∈ warp.simtStack,
      entry.targetPc < kernel.size →
      entry.activeMask.getLsbD lane = false

/-- A warp inside the kernel leaves the exited lanes out. -/
def Clean (kernel : Kernel) (exited : ActiveMask) (warp : Warp) : Prop :=
  ∀ lane,
    warp.warpPc < kernel.size →
    exited.getLsbD lane = true →
    Out kernel lane warp

section Steps

variable {kernel : Kernel}
variable {exited : ActiveMask}
variable {lane : Nat}
variable {warp executed : Warp}
variable {memory memory' : MemorySystem}
variable {inst : Instruction}
variable {result : ExecutionResult}

/-- Being out is a matter of the core of a warp. -/
theorem Out.of_core
    (same : SameCore warp executed)
    (out : Out kernel lane warp) :
    Out kernel lane executed where
  current := by
    rw [same.warpPc, same.activeMask]
    exact out.current
  waiting := by
    rw [same.simtStack]
    exact out.waiting

/-- An instruction moves no lane into a path that it was not in. -/
theorem Out.execute
    (out : Out kernel lane warp)
    (inside : warp.warpPc < kernel.size)
    (ran :
      execute inst (warp, memory) = .ok result (executed, memory')) :
    Out kernel lane executed := by
  have inactive := out.current inside
  cases (execute_ok ran).control with
  | fallThrough straight pc mask stack =>
      exact
        ⟨fun _ => mask ▸ inactive,
          fun entry member => out.waiting entry (stack ▸ member)⟩
  | barrier opcode convergent pc mask stack =>
      exact
        ⟨fun _ => mask ▸ inactive,
          fun entry member => out.waiting entry (stack ▸ member)⟩
  | branchNone opcode taken pc mask stack =>
      exact
        ⟨fun _ => mask ▸ inactive,
          fun entry member => out.waiting entry (stack ▸ member)⟩
  | branchAll opcode some taken pc mask stack =>
      exact
        ⟨fun _ => mask ▸ inactive,
          fun entry member => out.waiting entry (stack ▸ member)⟩
  | diverge opcode taken some proper pc stack =>
      refine ⟨fun _ => ?_, fun entry member goesOn => ?_⟩
      · rw [← Bool.not_eq_true]
        intro active
        have wasActive := ((taken lane).mp active).1
        rw [inactive] at wasActive
        cases wasActive
      · rw [stack] at member
        rcases List.mem_cons.mp member with rfl | older
        · rw [ActiveMask.getLsbD_diff, inactive, Bool.false_and]
        · exact out.waiting entry older goesOn
  | ssy opcode pc mask stack =>
      refine ⟨fun _ => mask ▸ inactive, fun entry member goesOn => ?_⟩
      rw [stack] at member
      rcases List.mem_cons.mp member with rfl | older
      · exact inactive
      · exact out.waiting entry older goesOn
  | syncToken opcode entry popped target pc mask =>
      dsimp only at popped target mask
      have older {other : SIMTStackEntry} :
          other ∈ executed.simtStack → other ∈ warp.simtStack := by
        rw [popped]
        exact List.mem_cons_of_mem entry
      refine
        ⟨fun _ => ?_, fun other member => out.waiting other (older member)⟩
      rw [mask]
      exact
        out.waiting entry (popped ▸ List.mem_cons_self) (target ▸ inside)
  | syncDeferred opcode entry popped target pc mask =>
      dsimp only at popped target pc mask
      have older {other : SIMTStackEntry} :
          other ∈ executed.simtStack → other ∈ warp.simtStack := by
        rw [popped]
        exact List.mem_cons_of_mem entry
      refine
        ⟨fun goesOn => ?_,
          fun other member => out.waiting other (older member)⟩
      rw [mask]
      exact
        out.waiting entry (popped ▸ List.mem_cons_self) (pc ▸ goesOn)

/--
The step lemma: an instruction that does not leave a region by ending keeps
the exited lanes out, the newly exited ones included.
-/
theorem Clean.settle
    (clean : Clean kernel exited warp)
    (fetched : kernel.fetch? warp.warpPc = some inst)
    (ran :
      execute inst (warp, memory) = .ok result (executed, memory'))
    (guarded : ¬ EndsInRegion kernel warp) :
    Clean kernel (exited ||| exitedBy kernel memory warp)
      (SM.settle kernel result executed) := by
  have inside := Kernel.fetch?_lt fetched
  have isExited :
      exitedBy kernel memory warp =
        pastEnd kernel executed |||
          pastEnd kernel (SM.settle kernel result executed) := by
    simp only [exitedBy, fetched, ran]
  have kept {lane : Nat} (wasExited : exited.getLsbD lane = true) :
      Out kernel lane executed :=
    (clean lane inside wasExited).execute inside ran
  intro lane settledInside isOut
  have noneResumed : pastEnd kernel (SM.settle kernel result executed) = 0 :=
    if_neg (Nat.not_le.mpr settledInside)
  rw [isExited, noneResumed] at isOut
  rw [BitVec.getLsbD_or, BitVec.getLsbD_or, Bool.or_eq_true,
    Bool.or_eq_true] at isOut
  by_cases executedInside : executed.warpPc < kernel.size
  · have noneEnded : pastEnd kernel executed = 0 :=
      if_neg (Nat.not_le.mpr executedInside)
    rw [noneEnded] at isOut
    have wasExited : exited.getLsbD lane = true := by
      simpa using isOut
    exact (kept wasExited).of_core (SM.settle_inside_core executedInside)
  · rw [not_lt] at executedInside
    cases stack : executed.simtStack with
    | nil =>
        rw [SM.settle_ends executedInside stack] at settledInside
        exact absurd executedInside (Nat.not_le.mpr settledInside)
    | cons entry rest =>
        rw [SM.settle_resumes executedInside stack] at settledInside ⊢
        have waiting :
            ∀ other ∈ executed.simtStack,
              other.targetPc < kernel.size →
              other.activeMask.getLsbD lane = false := by
          rcases isOut with wasExited | isEnded | isNone
          · exact (kept wasExited).waiting
          · intro other member goesOn
            rw [pastEnd, if_pos executedInside] at isEnded
            rw [← Bool.not_eq_true]
            intro holds
            refine guarded ?_
            obtain ⟨next, moved, current, pending⟩ := execute_control ran
            refine ⟨next, ?_, ?_, ?_, ?_⟩
            · rw [fetched]
              exact moved
            · rw [current]
              exact executedInside
            · refine ⟨entry.path, ?_, settledInside⟩
              rw [pending, Warp.paths, stack]
              rfl
            · refine ⟨other.path, ?_, goesOn, ?_⟩
              · rw [pending]
                exact List.mem_map_of_mem member
              · rw [current]
                intro none
                have noLane := ActiveMask.eq_zero_iff.mp none lane
                rw [BitVec.getLsbD_and, Bool.and_eq_false_iff] at noLane
                rcases noLane with notHeld | notEnded
                · exact Bool.false_ne_true (notHeld.symm.trans holds)
                · exact Bool.false_ne_true (notEnded.symm.trans isEnded)
          · simp at isNone
        exact
          ⟨fun _ => waiting entry (stack ▸ List.mem_cons_self) settledInside,
            fun other member =>
              waiting other (stack ▸ List.mem_cons_of_mem entry member)⟩

/-- A clean warp stays clean when only its scheduling state changes. -/
theorem Clean.of_core
    (clean : Clean kernel exited warp)
    (same : SameCore warp executed) :
    Clean kernel exited executed := by
  intro lane inside isOut
  rw [same.warpPc] at inside
  exact (clean lane inside isOut).of_core same

end Steps

section Runs

variable {kernel : Kernel}
variable {position : Nat}
variable {before after : Watch σ}

omit [WarpScheduler σ] in
/-- No more lanes exit. -/
theorem or_none (exited : ActiveMask) : exited ||| 0 = exited :=
  BitVec.or_zero

/-- Without an issue of the watched warp, no lane of it exits. -/
theorem exitedAt_none
    {sm : SM σ}
    {memory : MemorySystem}
    (notIssued : ∀ warp, sm.issued? ≠ some (position, warp)) :
    exitedAt kernel position memory sm = 0 := by
  unfold exitedAt
  split
  · rfl
  · rename_i index warp issued
    refine if_neg ?_
    rintro rfl
    exact notIssued warp issued

/-- When the watched warp is issued, the lanes that exit are its own. -/
theorem exitedAt_issued
    {sm : SM σ}
    {warp : Warp}
    {memory : MemorySystem}
    (issued : sm.issued? = some (position, warp)) :
    exitedAt kernel position memory sm = exitedBy kernel memory warp := by
  simp only [exitedAt, issued, if_true]

/-- The watched warp of a multiprocessor is clean. -/
def Watch.Clean
    (kernel : Kernel)
    (position : Nat)
    (watch : Watch σ) : Prop :=
  ∀ warp,
    watch.sm.warps[position]? = some warp →
    Exits.Clean kernel watch.exited warp

/-- The warp as it is issued is clean, too. -/
theorem Watch.Clean.issued
    {watch : Watch σ}
    {warp : Warp}
    (clean : watch.Clean kernel position)
    (issued : watch.sm.issued? = some (position, warp)) :
    Exits.Clean kernel watch.exited warp := by
  obtain ⟨former, found, waited⟩ := SM.issued?_waited issued
  exact (clean former found).of_core waited.core

/-- A guarded tick keeps the watched warp clean. -/
theorem Watch.GuardedTick.clean
    (ticked : before.GuardedTick kernel position after)
    (clean : before.Clean kernel position) :
    after.Clean kernel position := by
  obtain ⟨guarded, memory, memory', ran, isExited⟩ := ticked
  obtain ⟨_, _, step⟩ := SM.tick_ok ran
  intro changed found
  generalize after.sm.warps = warps at step found
  cases step with
  | quiet nothing waited =>
      obtain ⟨former, foundFormer, kept⟩ := Pointwise.origin waited found
      rw [isExited,
        exitedAt_none (fun warp => by rw [nothing]; exact nofun),
        or_none]
      exact (clean former foundFormer).of_core kept.core
  | issued selected step =>
      rename_i index warp
      have foundTimed := SM.issued?_timed selected
      by_cases same : position = index
      · subst same
        have cleanIssued := clean.issued selected
        rw [isExited, exitedAt_issued selected]
        by_cases executes : warp.warpPc < kernel.size
        · obtain ⟨inst, result, executed, held, fetched, ran, core, settled⟩ :=
            step.settled foundTimed executes
          rw [found, Option.some.injEq] at settled
          subst settled
          exact
            (cleanIssued.settle fetched ran (guarded selected)).of_core
              (SM.settle_core core)
        · have completed := step.pastEnd_warp foundTimed (not_lt.mp executes)
          rw [found, Option.some.injEq] at completed
          subst completed
          exact fun _ inside => absurd inside executes
      · obtain ⟨other, foundOther, core, _⟩ := step.other same found
        obtain ⟨former, foundFormer, waited⟩ :=
          Pointwise.origin before.sm.timed_waited foundOther
        have notIssued (other : Warp) :
            before.sm.issued? ≠ some (position, other) := by
          rw [selected]
          intro isThat
          cases isThat
          exact same rfl
        rw [isExited, exitedAt_none notIssued, or_none]
        exact (clean former foundFormer).of_core (waited.core.trans core)

/--
In every run of ticks in which the warp never leaves a region by ending, no
lane that has exited is active in an instruction executed later.
-/
theorem exited_stay_out
    {sm : SM σ}
    {watch : Watch σ}
    (run :
      Relation.ReflTransGen (Watch.GuardedTick kernel position) ⟨sm, 0⟩
        watch) :
    StayOut kernel position watch := by
  have clean : watch.Clean kernel position := by
    induction run with
    | refl =>
        intro former foundFormer lane _ isOut
        rw [ActiveMask.eq_zero_iff.mp rfl lane] at isOut
        cases isOut
    | tail _ step inductionHypothesis =>
        exact step.clean inductionHypothesis
  intro issuedWarp lane issued inside isOut
  exact (clean.issued issued lane inside isOut).current inside

/-- Watch one computed tick against a fixed memory system. -/
def advance?
    (kernel : Kernel)
    (position : Nat)
    (memory : MemorySystem)
    (watch : Watch σ) :
    Option (Watch σ) :=
  match watch.sm.tick kernel memory with
  | .error _ => none
  | .ok (after, _) =>
      some
        ⟨after, watch.exited ||| exitedAt kernel position memory watch.sm⟩

/-- Computed ticks are ticks. -/
theorem Watch.Tick.of_advance?
    {memory : MemorySystem}
    (computed : advance? kernel position memory before = some after) :
    before.Tick kernel position after := by
  unfold advance? at computed
  cases ran : before.sm.tick kernel memory with
  | error error =>
      rw [ran] at computed
      cases computed
  | ok pair =>
      rcases pair with ⟨sm, memory'⟩
      rw [ran] at computed
      cases computed
      exact ⟨memory, memory', ran, rfl⟩

/-- The next tick does not issue the watched warp to leave a region. -/
def staysInRegion
    (kernel : Kernel)
    (position : Nat)
    (watch : Watch σ) : Bool :=
  watch.sm.issued?.all fun issued =>
    issued.1 != position || !decide (EndsInRegion kernel issued.2)

/-- Allowed ticks are guarded. -/
theorem not_endsInRegion
    {watch : Watch σ}
    {warp : Warp}
    (allowed : staysInRegion kernel position watch = true)
    (issued : watch.sm.issued? = some (position, warp)) :
    ¬ EndsInRegion kernel warp := by
  unfold staysInRegion at allowed
  rw [issued] at allowed
  simpa using allowed

/-- Computed runs of a given length through allowed states. -/
def runFor
    (kernel : Kernel)
    (position : Nat)
    (memory : MemorySystem)
    (allowed : Watch σ → Bool) :
    Nat → Watch σ → Option (Watch σ)
  | 0, watch => some watch
  | ticks + 1, watch =>
      if allowed watch then
        (advance? kernel position memory watch).bind
          (runFor kernel position memory allowed ticks)
      else
        none

/-- Computed runs are runs of any relation that has the allowed ticks. -/
theorem runFor_run
    {memory : MemorySystem}
    {allowed : Watch σ → Bool}
    {relation : Watch σ → Watch σ → Prop}
    (related :
      ∀ {first second : Watch σ},
        allowed first = true →
        first.Tick kernel position second →
        relation first second)
    {ticks : Nat}
    (computed :
      runFor kernel position memory allowed ticks before = some after) :
    Relation.ReflTransGen relation before after := by
  induction ticks generalizing before with
  | zero =>
      rw [runFor, Option.some.injEq] at computed
      rw [computed]
  | succ ticks inductionHypothesis =>
      rw [runFor] at computed
      split at computed
      · rename_i isAllowed
        obtain ⟨middle, advanced, rest⟩ :=
          Option.bind_eq_some_iff.mp computed
        exact .head (related isAllowed (.of_advance? advanced))
          (inductionHypothesis rest)
      · cases computed

end Runs

/-- Two lanes of which the first jumps to the end, without a region. -/
def leaveKernel : Kernel where
  instructions :=
    [⟨.cmp, -1, 0, 1, 0⟩,
      ⟨.branch, -1, -1, -1, 2⟩,
      ⟨.mov, 2, -1, -1, 7⟩]
  lengthFits := by decide

/-- The same jump out of an `SSY` region. -/
def leaveRegionKernel : Kernel where
  instructions :=
    [⟨.cmp, -1, 0, 1, 0⟩,
      ⟨.ssy, -1, -1, -1, 2⟩,
      ⟨.branch, -1, -1, -1, 3⟩,
      ⟨.sync, 0, 0, 0, 0⟩,
      ⟨.mov, 2, -1, -1, 7⟩]
  lengthFits := by decide

/-- A multiprocessor with one warp of two lanes, the first of which jumps. -/
def twoLaneStart : SM Scheduler :=
  SM.hosting skippingLanes .greedy

/-- What is seen of a watch: the exited lanes and the lanes issued next. -/
def Watch.seen
    (watch : Watch σ) :
    ActiveMask × Option (Nat × Nat × ActiveMask) :=
  (watch.exited,
    watch.sm.issued?.map fun issued =>
      (issued.1, issued.2.warpPc, issued.2.activeMask))

/-- Without a region, the second lane goes on alone. -/
theorem exited_stay_out_two_lanes :
    ∃ watch : Watch Scheduler,
      Relation.ReflTransGen (Watch.GuardedTick leaveKernel 0)
          ⟨twoLaneStart, 0⟩ watch ∧
        watch.seen = (1, some (0, 2, 2)) ∧
        StayOut leaveKernel 0 watch := by
  have computed :
      (runFor leaveKernel 0 (.minimal 1) (staysInRegion leaveKernel 0) 2
          ⟨twoLaneStart, 0⟩).map Watch.seen =
        some (1, some (0, 2, 2)) := by
    decide +kernel
  obtain ⟨watch, reached, seen⟩ := Option.map_eq_some_iff.mp computed
  have run :
      Relation.ReflTransGen (Watch.GuardedTick leaveKernel 0)
        ⟨twoLaneStart, 0⟩ watch :=
    runFor_run
      (fun allowed step =>
        ⟨fun issued => not_endsInRegion allowed issued, step⟩)
      reached
  exact ⟨watch, run, seen, exited_stay_out run⟩

/--
A lane that exits inside an `SSY` region executes again: the token that the
`SYNC` pops has its bit.
-/
theorem exited_lane_returns :
    ¬ ∀ (kernel : Kernel) (position : Nat) (warp : Warp)
        (start watch : Watch Scheduler),
        start.sm.warps[position]? = some warp →
        Launched warp →
        start.exited = 0 →
        Relation.ReflTransGen (Watch.Tick kernel position) start watch →
        StayOut kernel position watch := by
  intro always
  have computed :
      (runFor leaveRegionKernel 0 (.minimal 1) (fun _ => true) 4
          ⟨twoLaneStart, 0⟩).map Watch.seen =
        some (1, some (0, 4, 3)) := by
    decide +kernel
  obtain ⟨watch, reached, seen⟩ := Option.map_eq_some_iff.mp computed
  rw [Watch.seen, Prod.mk.injEq] at seen
  obtain ⟨exited, next⟩ := seen
  obtain ⟨⟨index, warp⟩, issued, shape⟩ := Option.map_eq_some_iff.mp next
  simp only [Prod.mk.injEq] at shape
  obtain ⟨rfl, pc, mask⟩ := shape
  have run :
      Relation.ReflTransGen (Watch.Tick leaveRegionKernel 0)
        ⟨twoLaneStart, 0⟩ watch :=
    runFor_run (fun _ step => step) reached
  have inactive : warp.activeMask.getLsbD 0 = false :=
    always leaveRegionKernel 0 skippingLanes ⟨twoLaneStart, 0⟩ watch
      (by decide +kernel) ⟨by decide, by decide, by decide⟩ rfl run issued
      (by rw [pc]; decide) (by rw [exited]; decide)
  rw [mask] at inactive
  revert inactive
  decide

end Exits

end SimSm
