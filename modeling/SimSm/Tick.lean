import SimSm.Execution
import SimSm.Library.Pointwise
import SimSm.StreamingMultiprocessor

namespace SimSm

/-!
# What one tick can do

Inversion lemmas for the clock tick of a multiprocessor.  A tick that throws no
exception changes the timing of its warps, and then completes, executes or
releases at a barrier through the one warp that it issues.  The ledger of
resident blocks is never touched.
-/

open Outcome

/-- The fields of a warp that only executing an instruction changes. -/
structure SameCore (before after : Warp) : Prop where
  warpId : after.warpId = before.warpId
  threads : after.threads = before.threads
  warpPc : after.warpPc = before.warpPc
  priority : after.priority = before.priority
  activeMask : after.activeMask = before.activeMask
  reconvergencePc : after.reconvergencePc = before.reconvergencePc
  simtStack : after.simtStack = before.simtStack

namespace SameCore

theorem refl (warp : Warp) : SameCore warp warp :=
  ⟨rfl, rfl, rfl, rfl, rfl, rfl, rfl⟩

theorem trans
    {first second third : Warp}
    (earlier : SameCore first second)
    (later : SameCore second third) :
    SameCore first third where
  warpId := later.warpId.trans earlier.warpId
  threads := later.threads.trans earlier.threads
  warpPc := later.warpPc.trans earlier.warpPc
  priority := later.priority.trans earlier.priority
  activeMask := later.activeMask.trans earlier.activeMask
  reconvergencePc := later.reconvergencePc.trans earlier.reconvergencePc
  simtStack := later.simtStack.trans earlier.simtStack

theorem symm
    {first second : Warp}
    (same : SameCore first second) :
    SameCore second first where
  warpId := same.warpId.symm
  threads := same.threads.symm
  warpPc := same.warpPc.symm
  priority := same.priority.symm
  activeMask := same.activeMask.symm
  reconvergencePc := same.reconvergencePc.symm
  simtStack := same.simtStack.symm

/-- Timing keeps the identity of a warp. -/
theorem identity
    {before after : Warp}
    (same : SameCore before after) :
    after.identity = before.identity := by
  simp [Warp.identity, same.warpId, same.threads]

/-- Timing keeps the block of a warp. -/
theorem blockId?
    {before after : Warp}
    (same : SameCore before after) :
    after.blockId? = before.blockId? :=
  Warp.blockId?_of_identity same.identity

end SameCore

/-- Wait accounting keeps the core and the state of a warp. -/
structure Accounted (before after : Warp) : Prop where
  core : SameCore before after
  state : after.state = before.state

/-- Time keeps the core of a warp and wakes at most a stalled one. -/
structure Waited (before after : Warp) : Prop where
  core : SameCore before after
  state :
    after.state = before.state ∨
      before.state = .stalled ∧ after.state = .ready

namespace Waited

/-- Time does not change a warp that is not stalled. -/
theorem state_eq
    {before after : Warp}
    (waited : Waited before after)
    (notStalled : before.state ≠ .stalled) :
    after.state = before.state :=
  waited.state.resolve_right fun woken => notStalled woken.1

/-- Time neither starts nor ends a wait at a barrier. -/
theorem atBarrier_iff
    {before after : Warp}
    (waited : Waited before after) :
    after.state = .stalledAtBarrier ↔ before.state = .stalledAtBarrier := by
  rcases waited.state with same | ⟨stalled, ready⟩
  · rw [same]
  · simp [stalled, ready]

/-- Time completes no warp and revives none. -/
theorem completed_iff
    {before after : Warp}
    (waited : Waited before after) :
    after.state = .completed ↔ before.state = .completed := by
  rcases waited.state with same | ⟨stalled, ready⟩
  · rw [same]
  · simp [stalled, ready]

/-- Wait accounting after time passed. -/
theorem accounted
    {first second third : Warp}
    (waited : Waited first second)
    (later : Accounted second third) :
    Waited first third where
  core := waited.core.trans later.core
  state := by
    rw [later.state]
    exact waited.state

end Waited

/-- Counting a stall down is waiting. -/
theorem Warp.tickStall_waited
    (warp : Warp)
    (cycle : Nat) :
    Waited warp (warp.tickStall cycle) := by
  unfold Warp.tickStall
  split
  · rename_i stalled
    split
    · exact ⟨⟨rfl, rfl, rfl, rfl, rfl, rfl, rfl⟩, Or.inr ⟨stalled.1, rfl⟩⟩
    · exact ⟨⟨rfl, rfl, rfl, rfl, rfl, rfl, rfl⟩, Or.inl rfl⟩
  · exact ⟨.refl warp, Or.inl rfl⟩

/-- The starvation check only sets a flag. -/
theorem Warp.checkAndSetStarvation_accounted
    (warp : Warp) :
    Accounted warp warp.checkAndSetStarvation.2 := by
  unfold Warp.checkAndSetStarvation
  split
  · exact ⟨⟨rfl, rfl, rfl, rfl, rfl, rfl, rfl⟩, rfl⟩
  · exact ⟨.refl warp, rfl⟩

namespace SM

variable {σ : Type}

/-- Wait accounting of one warp keeps its core and its state. -/
theorem accountWarp_accounted
    (selectedId : Option Nat)
    (counters : PerformanceCounter)
    (warp : Warp) :
    Accounted warp (accountWarp selectedId counters warp).2 := by
  unfold accountWarp
  split
  · split
    · exact ⟨⟨rfl, rfl, rfl, rfl, rfl, rfl, rfl⟩, rfl⟩
    · have checked :=
        warp.incrementWaitCycles.checkAndSetStarvation_accounted
      change
        Accounted warp warp.incrementWaitCycles.checkAndSetStarvation.2
      have counted : SameCore warp warp.incrementWaitCycles :=
        ⟨rfl, rfl, rfl, rfl, rfl, rfl, rfl⟩
      exact ⟨counted.trans checked.core, checked.state⟩
  · exact ⟨.refl warp, rfl⟩

/-- What wait accounting does to a warp does not depend on the counters. -/
theorem accountWarp_warp
    (selectedId : Option Nat)
    (counters : PerformanceCounter)
    (warp : Warp) :
    (accountWarp selectedId counters warp).2 =
      (accountWarp selectedId {} warp).2 := by
  unfold accountWarp
  split
  · split <;> rfl
  · rfl

/-- Wait accounting treats every warp alone. -/
theorem accountWarps_warps
    (selectedId : Option Nat)
    (counters : PerformanceCounter)
    (warps : List Warp) :
    (accountWarps selectedId counters warps).2 =
      warps.map fun warp => (accountWarp selectedId {} warp).2 := by
  induction warps generalizing counters with
  | nil => rfl
  | cons warp rest inductionHypothesis =>
      rw [List.map_cons, ← accountWarp_warp selectedId counters warp,
        ← inductionHypothesis]
      rfl

/-- Wait accounting keeps the cores and the states of all warps. -/
theorem accountWarps_accounted
    (selectedId : Option Nat)
    (counters : PerformanceCounter)
    (warps : List Warp) :
    List.Forall₂ Accounted warps
      (accountWarps selectedId counters warps).2 := by
  rw [accountWarps_warps, List.forall₂_map_right_iff, List.forall₂_same]
  exact fun warp _ => accountWarp_accounted selectedId {} warp

/-- The position that a tick's scheduler selects, when there is a scheduler. -/
def selected? [WarpScheduler σ] (sm : SM σ) : Option Nat :=
  sm.scheduler.bind fun scheduler =>
    (WarpScheduler.selectWarp scheduler sm.tickStalls.warps).1

/-- The warps that a tick issues from: only time has passed for them. -/
def timed [WarpScheduler σ] (sm : SM σ) : List Warp :=
  (sm.tickStalls.accountSelection sm.selected?).warps

/-- The warp that a tick issues, with its position. -/
def issued? [WarpScheduler σ] (sm : SM σ) : Option (Nat × Warp) :=
  if sm.isCompleted then
    none
  else
    sm.selected?.bind fun index =>
      sm.timed[index]?.map fun warp => (index, warp)

theorem tickStalls_waited
    (sm : SM σ) :
    List.Forall₂ Waited sm.warps sm.tickStalls.warps := by
  unfold tickStalls
  rw [List.forall₂_map_right_iff, List.forall₂_same]
  exact fun warp _ => warp.tickStall_waited _

/-- Before issuing, a tick has only let time pass. -/
theorem timed_waited
    [WarpScheduler σ]
    (sm : SM σ) :
    List.Forall₂ Waited sm.warps sm.timed := by
  have accounted :
      List.Forall₂ Accounted sm.tickStalls.warps sm.timed :=
    accountWarps_accounted _ _ _
  exact
    Pointwise.compose sm.tickStalls_waited accounted
      fun waited later => waited.accounted later

end SM

/-! ## Barrier arrivals -/

/-- A warp that neither waits at a barrier nor has completed. -/
def Warp.Running (warp : Warp) : Prop :=
  warp.state ≠ .stalledAtBarrier ∧ warp.state ≠ .completed

instance (warp : Warp) : Decidable warp.Running :=
  inferInstanceAs
    (Decidable
      (warp.state ≠ .stalledAtBarrier ∧ warp.state ≠ .completed))

/-- A warp waits at a barrier, has completed or is running. -/
theorem Warp.waits_completed_or_running
    (warp : Warp) :
    warp.state = .stalledAtBarrier ∧ ¬warp.Running ∨
      warp.state = .completed ∧ ¬warp.Running ∨
      warp.Running := by
  by_cases waits : warp.state = .stalledAtBarrier
  · exact Or.inl ⟨waits, fun running => running.1 waits⟩
  · by_cases completed : warp.state = .completed
    · exact Or.inr (Or.inl ⟨completed, fun running => running.2 completed⟩)
    · exact Or.inr (Or.inr ⟨waits, completed⟩)

/-- Release one warp of a block from its barrier. -/
def Warp.releaseFrom (blockId cycle : Nat) (warp : Warp) : Warp :=
  if SM.belongsTo warp blockId && warp.state == .stalledAtBarrier then
    warp.setReady cycle
  else
    warp

/-- A release readies the waiting warps of its block. -/
theorem Warp.releaseFrom_waiting
    {blockId cycle : Nat}
    {warp : Warp}
    (inBlock : warp.blockId? = some blockId)
    (waiting : warp.state = .stalledAtBarrier) :
    (warp.releaseFrom blockId cycle).state = .ready := by
  simp [Warp.releaseFrom, SM.belongsTo, inBlock, waiting, Warp.setReady]

/-- A release leaves the warps of other blocks alone. -/
theorem Warp.releaseFrom_elsewhere
    {blockId cycle : Nat}
    {warp : Warp}
    (elsewhere : warp.blockId? ≠ some blockId) :
    warp.releaseFrom blockId cycle = warp := by
  simp [Warp.releaseFrom, SM.belongsTo, elsewhere]

namespace SM

/-- A warp of a block waits, has completed or is running. -/
theorem countInBlock_split
    (warps : List Warp)
    (blockId : Nat) :
    countInBlock warps blockId (fun _ => true) =
      countInBlock warps blockId (fun other =>
          other.state == .stalledAtBarrier) +
        countInBlock warps blockId (fun other =>
          other.state == .completed) +
        countInBlock warps blockId fun other => decide other.Running := by
  unfold countInBlock
  induction warps with
  | nil =>
      rfl
  | cons warp rest inductionHypothesis =>
      simp only [List.countP_cons]
      rw [inductionHypothesis]
      cases inBlock : belongsTo warp blockId with
      | false =>
          simp
      | true =>
          rcases warp.waits_completed_or_running with
            ⟨state, notRunning⟩ | ⟨state, notRunning⟩ | running
          · simp only [state, notRunning]
            simp
            omega
          · simp only [state, notRunning]
            simp
            omega
          · simp [running, running.1, running.2]
            omega

/-- The rendezvous test passes when no warp of the block is running. -/
theorem countInBlock_rendezvous
    {warps : List Warp}
    {blockId : Nat} :
    countInBlock warps blockId (fun other =>
          other.state == .stalledAtBarrier) +
        countInBlock warps blockId (fun other =>
          other.state == .completed) =
        countInBlock warps blockId (fun _ => true) ↔
      ∀ other ∈ warps,
        belongsTo other blockId = true → ¬other.Running := by
  have noneRunning :
      countInBlock warps blockId (fun other => decide other.Running) = 0 ↔
        ∀ other ∈ warps,
          belongsTo other blockId = true → ¬other.Running := by
    unfold countInBlock
    rw [List.countP_eq_zero]
    simp
  rw [countInBlock_split, ← noneRunning]
  omega

/-- No completed warp is counted when a block has none. -/
theorem countInBlock_completed
    {warps : List Warp}
    {blockId : Nat} :
    countInBlock warps blockId (fun other =>
        other.state == .completed) = 0 ↔
      ∀ other ∈ warps,
        belongsTo other blockId = true → other.state ≠ .completed := by
  unfold countInBlock
  rw [List.countP_eq_zero]
  simp

/--
A barrier arrival that throws nothing either waits for a running warp of the
block, or finds all of them waiting and releases them.
-/
theorem handleBarrierArrival_ok
    {sm after : SM σ}
    {index : Nat}
    {warp : Warp}
    (found : sm.warps[index]? = some warp)
    (ran : sm.handleBarrierArrival index = .ok after) :
    (∃ other ∈ sm.warps.set index warp.setStalledAtBarrier,
        belongsTo other (warp.blockId?.getD 0) = true ∧ other.Running ∧
          after = sm.setWarp index warp.setStalledAtBarrier) ∨
      ((∀ other ∈ sm.warps.set index warp.setStalledAtBarrier,
          belongsTo other (warp.blockId?.getD 0) = true →
            other.state = .stalledAtBarrier) ∧
        after =
          { sm with
            warps :=
              (sm.warps.set index warp.setStalledAtBarrier).map
                (Warp.releaseFrom (warp.blockId?.getD 0)
                  sm.counters.cycles) }) := by
  simp only [handleBarrierArrival, found] at ran
  split at ran
  · rename_i rendezvous
    split at ran
    · cases ran
    · rename_i noneCompleted
      right
      have notRunning := countInBlock_rendezvous.mp rendezvous
      have notCompleted :=
        countInBlock_completed.mp (Nat.eq_zero_of_not_pos noneCompleted)
      refine ⟨fun other member inBlock => ?_, ?_⟩
      · have stopped := notRunning other member inBlock
        have unfinished := notCompleted other member inBlock
        by_contra notWaiting
        exact stopped ⟨notWaiting, unfinished⟩
      · cases ran
        rfl
  · rename_i noRendezvous
    left
    rw [countInBlock_rendezvous] at noRendezvous
    push Not at noRendezvous
    obtain ⟨other, member, inBlock, running⟩ := noRendezvous
    cases ran
    exact ⟨other, member, inBlock, running, rfl⟩

/-! ## Settling the issued warp -/

/-- Resuming a popped path keeps the identity of a warp. -/
theorem resumePath_identity
    (warp : Warp)
    (path : SIMTStackEntry) :
    (resumePath warp path).identity = warp.identity := by
  have sameThreads :
      (resumePath warp path).threads.map Thread.identity =
        warp.threads.map Thread.identity := by
    apply List.ext_getElem? fun position => ?_
    simp only [resumePath, List.getElem?_map, List.getElem?_mapIdx,
      Option.map_map]
    congr 1
    funext thread
    simp only [Function.comp_apply]
    split <;> simp [Thread.identity]
  have sameId : (resumePath warp path).warpId = warp.warpId := rfl
  simp only [Warp.identity, sameThreads, sameId]

/-- Stalling keeps the core of a warp. -/
theorem stall_core
    (warp : Warp)
    (cycles : Nat) :
    SameCore warp (warp.stall cycles) := by
  unfold Warp.stall
  split
  · exact ⟨rfl, rfl, rfl, rfl, rfl, rfl, rfl⟩
  · exact .refl warp

/-- Settling keeps the identity of a warp. -/
theorem settle_identity
    (kernel : Kernel)
    (result : ExecutionResult)
    (warp : Warp) :
    (settle kernel result warp).identity = warp.identity := by
  unfold settle
  split
  · cases popped : warp.popSimtStack with
    | none =>
        dsimp only
        split <;> rfl
    | some pair =>
        rcases pair with ⟨path, rest⟩
        rw [resumePath_identity]
        cases stack : warp.simtStack with
        | nil =>
            simp [Warp.popSimtStack, stack] at popped
        | cons entry tail =>
            simp only [Warp.popSimtStack, stack, Option.some.injEq,
              Prod.mk.injEq] at popped
            rw [← popped.2]
            rfl
  · split
    · exact (stall_core warp _).identity
    · rfl

/-- A warp that has left the kernel with no path waiting. -/
def Ended (kernel : Kernel) (warp : Warp) : Prop :=
  kernel.size ≤ warp.warpPc ∧ warp.simtStack = []

instance (kernel : Kernel) (warp : Warp) : Decidable (Ended kernel warp) :=
  inferInstanceAs
    (Decidable (kernel.size ≤ warp.warpPc ∧ warp.simtStack = []))

/-- Settling completes exactly the warps that have ended and do not wait. -/
theorem settle_completed
    {kernel : Kernel}
    {result : ExecutionResult}
    {warp : Warp}
    (ended : Ended kernel warp)
    (notWaiting : warp.state ≠ .stalledAtBarrier) :
    settle kernel result warp = warp.setCompleted := by
  simp [settle, ended.1, Warp.popSimtStack, ended.2, notWaiting]

/--
After a barrier, settling keeps the state of a warp that waits there or has
not ended.
-/
theorem settle_barrier
    {kernel : Kernel}
    {result : ExecutionResult}
    {warp : Warp}
    (barrier : result.status = .barrierReached)
    (stays : ¬Ended kernel warp ∨ warp.state = .stalledAtBarrier) :
    (settle kernel result warp).state = warp.state := by
  unfold settle
  split
  · rename_i outside
    cases stack : warp.simtStack with
    | nil =>
        have waiting := stays.resolve_left fun goesOn =>
          goesOn ⟨outside, stack⟩
        simp [Warp.popSimtStack, stack, waiting]
    | cons entry rest =>
        simp [Warp.popSimtStack, stack, resumePath]
  · simp [barrier]

/-- Without a deferred path and a latency, settling at most completes. -/
theorem settle_prompt
    {kernel : Kernel}
    {result : ExecutionResult}
    {warp : Warp}
    (prompt : result.status = .barrierReached ∨ result.latency = 1)
    (stack : warp.simtStack = []) :
    settle kernel result warp = warp ∨
      settle kernel result warp = warp.setCompleted := by
  unfold settle
  split
  · by_cases waiting : warp.state = .stalledAtBarrier
    · left
      simp [Warp.popSimtStack, stack, waiting]
    · right
      simp [Warp.popSimtStack, stack, waiting]
  · left
    rcases prompt with barrier | quick
    · simp [barrier]
    · simp [quick]

/-- A warp that goes on stays as it is or stalls for its latency. -/
theorem settle_continues
    {kernel : Kernel}
    {result : ExecutionResult}
    {warp : Warp}
    (goesOn : ¬Ended kernel warp) :
    (settle kernel result warp).state = warp.state ∨
      (settle kernel result warp).state = .stalled := by
  unfold settle
  split
  · rename_i outside
    cases stack : warp.simtStack with
    | nil =>
        exact (goesOn ⟨outside, stack⟩).elim
    | cons entry rest =>
        left
        simp [Warp.popSimtStack, stack, resumePath]
  · split
    · rename_i slow
      right
      have positive : 0 < result.latency - 1 := by omega
      simp [Warp.stall, positive, Warp.resetWaitCycles]
    · exact Or.inl rfl

/-- A ready warp that settles is completed exactly when it has ended. -/
theorem settle_ready
    {kernel : Kernel}
    {result : ExecutionResult}
    {warp : Warp}
    (ready : warp.state = .ready) :
    (Ended kernel warp ∧
        (settle kernel result warp).state = .completed) ∨
      (¬Ended kernel warp ∧ (settle kernel result warp).Running) := by
  by_cases ended : Ended kernel warp
  · left
    refine ⟨ended, ?_⟩
    rw [settle_completed ended (by simp [ready])]
    rfl
  · right
    refine ⟨ended, ?_⟩
    unfold Warp.Running
    rcases @settle_continues kernel result warp ended with same | stalled
    · simp [same, ready]
    · simp [stalled]

/-- What settling does to the core of a warp is decided by its core. -/
theorem settle_core
    {kernel : Kernel}
    {result : ExecutionResult}
    {warp executed : Warp}
    (same : SameCore warp executed) :
    SameCore (settle kernel result warp)
      (settle kernel result executed) := by
  rcases same with
    ⟨warpId, threads, warpPc, priority, mask, reconvergence, stack⟩
  unfold settle
  rw [warpPc]
  split
  · cases entries : warp.simtStack with
    | nil =>
        rw [entries] at stack
        rw [Warp.popSimtStack, Warp.popSimtStack, entries, stack]
        have core : SameCore warp executed :=
          ⟨warpId, threads, warpPc, priority, mask, reconvergence,
            stack.trans entries.symm⟩
        have completedCore (other : Warp) :
            SameCore other
              (if other.state ≠ .stalledAtBarrier then
                other.setCompleted
              else
                other) := by
          split
          · exact ⟨rfl, rfl, rfl, rfl, rfl, rfl, rfl⟩
          · exact .refl other
        exact
          ((completedCore warp).symm.trans core).trans
            (completedCore executed)
    | cons entry rest =>
        rw [entries] at stack
        rw [Warp.popSimtStack, Warp.popSimtStack, entries, stack]
        refine ⟨warpId, ?_, rfl, priority, rfl, rfl, rfl⟩
        simp only [resumePath, threads]
  · have core : SameCore warp executed :=
      ⟨warpId, threads, warpPc, priority, mask, reconvergence, stack⟩
    have stalledCore (other : Warp) :
        SameCore other
          (if result.status ≠ .barrierReached ∧ 1 < result.latency then
            other.stall (result.latency - 1)
          else
            other) := by
      split
      · exact stall_core other _
      · exact .refl other
    exact ((stalledCore warp).symm.trans core).trans (stalledCore executed)

/-- A warp inside the kernel keeps its core when it settles. -/
theorem settle_inside_core
    {kernel : Kernel}
    {result : ExecutionResult}
    {warp : Warp}
    (inside : warp.warpPc < kernel.size) :
    SameCore warp (settle kernel result warp) := by
  rw [settle, if_neg (Nat.not_le.mpr inside)]
  split
  · exact stall_core warp _
  · exact .refl warp

/-- A warp past the end with a waiting path resumes that path. -/
theorem settle_resumes
    {kernel : Kernel}
    {result : ExecutionResult}
    {warp : Warp}
    {entry : SIMTStackEntry}
    {rest : List SIMTStackEntry}
    (outside : kernel.size ≤ warp.warpPc)
    (stack : warp.simtStack = entry :: rest) :
    settle kernel result warp =
      resumePath { warp with simtStack := rest } entry := by
  rw [settle, if_pos outside, Warp.popSimtStack, stack]

/-- A warp past the end with no waiting path stays there. -/
theorem settle_ends
    {kernel : Kernel}
    {result : ExecutionResult}
    {warp : Warp}
    (outside : kernel.size ≤ warp.warpPc)
    (stack : warp.simtStack = []) :
    (settle kernel result warp).warpPc = warp.warpPc := by
  rw [settle, if_pos outside, Warp.popSimtStack, stack]
  dsimp only
  split
  · rfl
  · rfl

/-! ## The tick -/

/-- Some warp of a block, other than the one at a position, is running. -/
def OtherRuns (warps : List Warp) (index blockId : Nat) : Prop :=
  ∃ position other,
    position ≠ index ∧ warps[position]? = some other ∧
      belongsTo other blockId = true ∧ other.Running

/-- Every warp of a block, other than the one at a position, waits. -/
def OthersWait (warps : List Warp) (index blockId : Nat) : Prop :=
  ∀ position other,
    position ≠ index →
    warps[position]? = some other →
    belongsTo other blockId = true →
    other.state = .stalledAtBarrier

/-- What issuing the warp at a position does to the warps and the memory. -/
inductive IssueStep
    (kernel : Kernel)
    (warps : List Warp)
    (index : Nat)
    (warp : Warp)
    (memory : MemorySystem) :
    List Warp → MemorySystem → Prop where
  | pastEnd
      (outside : kernel.size ≤ warp.warpPc) :
      IssueStep kernel warps index warp memory
        (warps.set index warp.setCompleted) memory
  | executed
      {inst : Instruction}
      {result : ExecutionResult}
      {executed : Warp}
      {memory' : MemorySystem}
      (fetched : kernel.fetch? warp.warpPc = some inst)
      (ran :
        InstructionExecutor.execute inst (warp, memory) =
          .ok result (executed, memory'))
      (notBarrier : inst.opcode ≠ .barrier) :
      IssueStep kernel warps index warp memory
        (warps.set index (settle kernel result executed)) memory'
  | waits
      {inst : Instruction}
      {result : ExecutionResult}
      {executed : Warp}
      {memory' : MemorySystem}
      (fetched : kernel.fetch? warp.warpPc = some inst)
      (ran :
        InstructionExecutor.execute inst (warp, memory) =
          .ok result (executed, memory'))
      (barrier : inst.opcode = .barrier)
      (otherRuns : OtherRuns warps index (executed.blockId?.getD 0)) :
      IssueStep kernel warps index warp memory
        (warps.set index
          (settle kernel result executed.setStalledAtBarrier))
        memory'
  | released
      {inst : Instruction}
      {result : ExecutionResult}
      {executed : Warp}
      {memory' : MemorySystem}
      (cycle : Nat)
      (fetched : kernel.fetch? warp.warpPc = some inst)
      (ran :
        InstructionExecutor.execute inst (warp, memory) =
          .ok result (executed, memory'))
      (barrier : inst.opcode = .barrier)
      (othersWait : OthersWait warps index (executed.blockId?.getD 0)) :
      IssueStep kernel warps index warp memory
        ((warps.map
            (Warp.releaseFrom (executed.blockId?.getD 0) cycle)).set index
          (settle kernel result
            (executed.setStalledAtBarrier.releaseFrom
              (executed.blockId?.getD 0) cycle)))
        memory'

/-- Two multiprocessors agree on everything a tick leaves alone. -/
structure SameLedger (before after : SM σ) : Prop where
  residentBlocks : after.residentBlocks = before.residentBlocks
  allocatedBlocks : after.allocatedBlocks = before.allocatedBlocks
  allocatedWarps : after.allocatedWarps = before.allocatedWarps
  allocatedThreads : after.allocatedThreads = before.allocatedThreads
  allocatedRegisters : after.allocatedRegisters = before.allocatedRegisters
  allocatedSharedMemory :
    after.allocatedSharedMemory = before.allocatedSharedMemory

/-- What is said of the other positions ignores the position itself. -/
theorem otherRuns_set
    {warps : List Warp}
    {index blockId : Nat}
    {warp : Warp} :
    OtherRuns (warps.set index warp) index blockId ↔
      OtherRuns warps index blockId := by
  constructor <;>
    rintro ⟨position, other, elsewhere, found, inBlock, running⟩ <;>
    refine ⟨position, other, elsewhere, ?_, inBlock, running⟩
  · rwa [List.getElem?_set_ne (Ne.symm elsewhere)] at found
  · rwa [List.getElem?_set_ne (Ne.symm elsewhere)]

theorem othersWait_set
    {warps : List Warp}
    {index blockId : Nat}
    {warp : Warp} :
    OthersWait (warps.set index warp) index blockId ↔
      OthersWait warps index blockId := by
  constructor <;>
    intro wait position other elsewhere found inBlock <;>
    refine wait position other elsewhere ?_ inBlock
  · rwa [List.getElem?_set_ne (Ne.symm elsewhere)]
  · rwa [List.getElem?_set_ne (Ne.symm elsewhere)] at found

/--
A barrier arrival that throws nothing finds another warp of the block running
and waits, or finds all others waiting and releases them.
-/
theorem handleBarrierArrival_positions
    {sm after : SM σ}
    {index : Nat}
    {warp : Warp}
    (found : sm.warps[index]? = some warp)
    (ran : sm.handleBarrierArrival index = .ok after) :
    SameLedger sm after ∧ after.scheduler = sm.scheduler ∧
      (OtherRuns sm.warps index (warp.blockId?.getD 0) ∧
          after.warps = sm.warps.set index warp.setStalledAtBarrier ∨
        OthersWait sm.warps index (warp.blockId?.getD 0) ∧
          ∃ cycle,
            after.warps =
              (sm.warps.map
                  (Warp.releaseFrom (warp.blockId?.getD 0) cycle)).set index
                (warp.setStalledAtBarrier.releaseFrom
                  (warp.blockId?.getD 0) cycle)) := by
  rcases handleBarrierArrival_ok found ran with
    ⟨other, member, inBlock, running, rfl⟩ | ⟨allWait, rfl⟩
  · refine ⟨⟨rfl, rfl, rfl, rfl, rfl, rfl⟩, rfl, Or.inl ⟨?_, rfl⟩⟩
    obtain ⟨position, foundOther⟩ := List.mem_iff_getElem?.mp member
    rw [← otherRuns_set]
    refine ⟨position, other, ?_, foundOther, inBlock, running⟩
    rintro rfl
    rw [List.getElem?_set_self (List.getElem?_eq_some_iff.mp found).1,
      Option.some.injEq] at foundOther
    rw [← foundOther] at running
    exact running.1 rfl
  · refine ⟨⟨rfl, rfl, rfl, rfl, rfl, rfl⟩, rfl,
      Or.inr ⟨?_, sm.counters.cycles, List.map_set⟩⟩
    rw [← othersWait_set]
    intro position other _ foundOther inBlock
    exact allWait other (List.mem_of_getElem? foundOther) inBlock

/-- Modifying a position that was just written writes the modified element. -/
theorem modify_set
    {warps : List Warp}
    {index : Nat}
    {warp : Warp}
    {update : Warp → Warp} :
    (warps.set index warp).modify index update =
      warps.set index (update warp) := by
  apply List.ext_getElem?
  intro position
  rw [List.getElem?_modify, List.getElem?_set, List.getElem?_set]
  by_cases same : index = position
  · subst same
    by_cases inside : index < warps.length
    · simp [inside]
    · simp [inside]
  · simp [same]

/-- Issuing a warp that throws nothing is one of the four issue steps. -/
theorem issue_ok
    {sm after : SM σ}
    {index : Nat}
    {warp : Warp}
    {kernel : Kernel}
    {memory memory' : MemorySystem}
    (found : sm.warps[index]? = some warp)
    (ran : sm.issue index warp kernel memory = .ok (after, memory')) :
    SameLedger sm after ∧ after.scheduler = sm.scheduler ∧
      IssueStep kernel sm.warps index warp memory after.warps memory' := by
  unfold issue at ran
  cases fetched : kernel.fetch? warp.warpPc with
  | none =>
      simp only [fetched, Except.ok.injEq, Prod.mk.injEq] at ran
      obtain ⟨rfl, rfl⟩ := ran
      exact
        ⟨⟨rfl, rfl, rfl, rfl, rfl, rfl⟩, rfl,
          .pastEnd (Kernel.fetch?_eq_none_iff.mp fetched)⟩
  | some inst =>
      simp only [fetched] at ran
      cases executes : InstructionExecutor.execute inst (warp, memory) with
      | error error _ =>
          simp [executes] at ran
      | ok result final =>
          rcases final with ⟨executed, memory''⟩
          simp only [executes] at ran
          have facts := InstructionExecutor.execute_ok executes
          by_cases barrier : inst.opcode = .barrier
          · rw [if_pos (facts.barrier.mpr barrier)] at ran
            obtain ⟨arrived, arrives, returned⟩ :=
              Outcome.except_bind_ok.mp ran
            cases returned
            have inside : index < sm.warps.length :=
              (List.getElem?_eq_some_iff.mp found).1
            obtain ⟨ledger, scheduler, shape⟩ :=
              handleBarrierArrival_positions
                (List.getElem?_set_self inside) arrives
            refine
              ⟨⟨ledger.1, ledger.2, ledger.3, ledger.4, ledger.5, ledger.6⟩,
                scheduler, ?_⟩
            dsimp only
            rcases shape with ⟨otherRuns, shape⟩ | ⟨othersWait, cycle, shape⟩
            · rw [shape]
              simp only [setWarp, List.set_set]
              rw [modify_set]
              exact
                .waits fetched executes barrier (otherRuns_set.mp otherRuns)
            · rw [shape]
              simp only [setWarp, List.map_set, List.set_set]
              rw [modify_set]
              exact
                .released cycle fetched executes barrier
                  (othersWait_set.mp othersWait)
          · rw [if_neg (fun reached =>
              barrier (facts.barrier.mp reached))] at ran
            obtain ⟨arrived, arrives, returned⟩ :=
              Outcome.except_bind_ok.mp ran
            cases arrives
            cases returned
            refine ⟨⟨rfl, rfl, rfl, rfl, rfl, rfl⟩, rfl, ?_⟩
            simp only [setWarp]
            rw [modify_set]
            exact .executed fetched executes barrier

/-- A barrier arrival counts nothing. -/
theorem handleBarrierArrival_counters
    {sm after : SM σ}
    {index : Nat}
    (ran : sm.handleBarrierArrival index = .ok after) :
    after.counters = sm.counters := by
  unfold handleBarrierArrival at ran
  dsimp only at ran
  split at ran
  · cases ran
    rfl
  · split at ran
    · split at ran
      · cases ran
      · cases ran
        rfl
    · cases ran
      rfl

/-- What issuing a warp counts. -/
inductive IssueCounts
    (kernel : Kernel)
    (warp : Warp)
    (memory : MemorySystem)
    (counters : PerformanceCounter) :
    PerformanceCounter → MemorySystem → Prop where
  | pastEnd
      (outside : kernel.fetch? warp.warpPc = none) :
      IssueCounts kernel warp memory counters counters memory
  | executed
      {inst : Instruction}
      {result : ExecutionResult}
      {executed : Warp}
      {memory' : MemorySystem}
      (fetched : kernel.fetch? warp.warpPc = some inst)
      (ran :
        InstructionExecutor.execute inst (warp, memory) =
          .ok result (executed, memory')) :
      IssueCounts kernel warp memory counters
        (retire result (recordResult inst result counters)) memory'

/-- The counters after an issue that throws nothing. -/
theorem issue_counters
    {sm after : SM σ}
    {index : Nat}
    {warp : Warp}
    {kernel : Kernel}
    {memory memory' : MemorySystem}
    (ran : sm.issue index warp kernel memory = .ok (after, memory')) :
    IssueCounts kernel warp memory sm.counters after.counters memory' := by
  unfold issue at ran
  cases fetched : kernel.fetch? warp.warpPc with
  | none =>
      simp only [fetched, Except.ok.injEq, Prod.mk.injEq] at ran
      obtain ⟨rfl, rfl⟩ := ran
      exact .pastEnd fetched
  | some inst =>
      simp only [fetched] at ran
      cases executes : InstructionExecutor.execute inst (warp, memory) with
      | error error _ =>
          simp [executes] at ran
      | ok result final =>
          rcases final with ⟨executed, memory''⟩
          simp only [executes] at ran
          by_cases reached : result.status = .barrierReached
          · rw [if_pos reached] at ran
            obtain ⟨arrived, arrives, returned⟩ :=
              Outcome.except_bind_ok.mp ran
            cases returned
            have counters := handleBarrierArrival_counters arrives
            change
              IssueCounts kernel warp memory sm.counters
                (retire result arrived.counters) memory'
            rw [counters]
            exact .executed fetched executes
          · rw [if_neg reached] at ran
            obtain ⟨arrived, arrives, returned⟩ :=
              Outcome.except_bind_ok.mp ran
            cases arrives
            cases returned
            exact .executed fetched executes

/-- Releasing keeps the core of a warp. -/
theorem releaseFrom_core
    (blockId cycle : Nat)
    (warp : Warp) :
    SameCore warp (warp.releaseFrom blockId cycle) := by
  unfold Warp.releaseFrom Warp.setReady
  split
  · split
    · exact ⟨rfl, rfl, rfl, rfl, rfl, rfl, rfl⟩
    · exact .refl warp
  · exact .refl warp

/-- A warp other than the issued one stays as it is or is released. -/
theorem IssueStep.other
    {kernel : Kernel}
    {warps after : List Warp}
    {index position : Nat}
    {warp changed : Warp}
    {memory memory' : MemorySystem}
    (step : IssueStep kernel warps index warp memory after memory')
    (elsewhere : position ≠ index)
    (found : after[position]? = some changed) :
    ∃ other,
      warps[position]? = some other ∧ SameCore other changed ∧
        (changed.state = other.state ∨
          other.state = .stalledAtBarrier ∧ changed.state = .ready) := by
  cases step with
  | pastEnd outside =>
      rw [List.getElem?_set_ne elsewhere.symm] at found
      exact ⟨changed, found, .refl changed, Or.inl rfl⟩
  | executed fetched ran notBarrier =>
      rw [List.getElem?_set_ne elsewhere.symm] at found
      exact ⟨changed, found, .refl changed, Or.inl rfl⟩
  | waits fetched ran barrier otherRuns =>
      rw [List.getElem?_set_ne elsewhere.symm] at found
      exact ⟨changed, found, .refl changed, Or.inl rfl⟩
  | released cycle fetched ran barrier othersWait =>
      rw [List.getElem?_set_ne elsewhere.symm, List.getElem?_map] at found
      obtain ⟨other, foundOther, rfl⟩ := Option.map_eq_some_iff.mp found
      refine ⟨other, foundOther, releaseFrom_core _ _ other, ?_⟩
      unfold Warp.releaseFrom Warp.setReady
      split
      · rename_i waits
        simp only [Bool.and_eq_true, beq_iff_eq] at waits
        right
        simp [waits.2]
      · exact Or.inl rfl

/-- A warp that is issued past the end of the kernel stays as it is. -/
theorem IssueStep.pastEnd_warp
    {kernel : Kernel}
    {warps after : List Warp}
    {index : Nat}
    {warp : Warp}
    {memory memory' : MemorySystem}
    (step : IssueStep kernel warps index warp memory after memory')
    (found : warps[index]? = some warp)
    (outside : kernel.size ≤ warp.warpPc) :
    after[index]? = some warp.setCompleted := by
  cases step with
  | pastEnd _ =>
      exact
        List.getElem?_set_self (List.getElem?_eq_some_iff.mp found).1
  | executed fetched _ _ | waits fetched _ _ _ | released _ fetched _ _ _ =>
      exact (Nat.not_le.mpr (Kernel.fetch?_lt fetched) outside).elim

/--
A warp that is issued inside the kernel executes one instruction and settles;
a barrier in between changes its scheduling state only.
-/
theorem IssueStep.settled
    {kernel : Kernel}
    {warps after : List Warp}
    {index : Nat}
    {warp : Warp}
    {memory memory' : MemorySystem}
    (step : IssueStep kernel warps index warp memory after memory')
    (found : warps[index]? = some warp)
    (inside : warp.warpPc < kernel.size) :
    ∃ inst result executed held,
      kernel.fetch? warp.warpPc = some inst ∧
        InstructionExecutor.execute inst (warp, memory) =
          .ok result (executed, memory') ∧
        SameCore executed held ∧
        after[index]? = some (settle kernel result held) := by
  have within : index < warps.length :=
    (List.getElem?_eq_some_iff.mp found).1
  cases step with
  | pastEnd outside => exact (Nat.not_le.mpr inside outside).elim
  | executed fetched ran notBarrier =>
      exact
        ⟨_, _, _, _, fetched, ran, .refl _, List.getElem?_set_self within⟩
  | waits fetched ran barrier otherRuns =>
      rename_i executed
      exact
        ⟨_, _, executed, executed.setStalledAtBarrier, fetched, ran,
          ⟨rfl, rfl, rfl, rfl, rfl, rfl, rfl⟩,
          List.getElem?_set_self within⟩
  | released cycle fetched ran barrier othersWait =>
      refine
        ⟨_, _, _, _, fetched, ran, SameCore.trans ?_ (releaseFrom_core _ _ _),
          List.getElem?_set_self (by rwa [List.length_map])⟩
      exact ⟨rfl, rfl, rfl, rfl, rfl, rfl, rfl⟩

/-- Issuing keeps the identity of every warp. -/
theorem IssueStep.identities
    {kernel : Kernel}
    {warps after : List Warp}
    {index : Nat}
    {warp : Warp}
    {memory memory' : MemorySystem}
    (found : warps[index]? = some warp)
    (step : IssueStep kernel warps index warp memory after memory') :
    after.map Warp.identity = warps.map Warp.identity := by
  cases step with
  | pastEnd outside =>
      exact Pointwise.map_set_eq found rfl
  | executed fetched ran notBarrier =>
      refine Pointwise.map_set_eq found ?_
      rw [settle_identity]
      exact (InstructionExecutor.execute_ok ran).shell.identity
  | waits fetched ran barrier otherRuns =>
      refine Pointwise.map_set_eq found ?_
      rw [settle_identity]
      exact (InstructionExecutor.execute_ok ran).shell.identity
  | released cycle fetched ran barrier othersWait =>
      rename_i executed
      have sameReleased :
          (warps.map
              (Warp.releaseFrom (executed.blockId?.getD 0) cycle)).map
              Warp.identity =
            warps.map Warp.identity := by
        rw [List.map_map]
        exact
          List.map_congr_left fun other _ =>
            (releaseFrom_core _ cycle other).identity
      rw [← sameReleased]
      refine Pointwise.map_set_eq (by rw [List.getElem?_map, found]; rfl) ?_
      rw [settle_identity, (releaseFrom_core _ cycle _).identity,
        (releaseFrom_core _ cycle _).identity]
      exact (InstructionExecutor.execute_ok ran).shell.identity

/-- How a tick that throws nothing went. -/
inductive TickStep [WarpScheduler σ]
    (kernel : Kernel)
    (sm : SM σ)
    (memory : MemorySystem) :
    List Warp → MemorySystem → Prop where
  | quiet
      {warps : List Warp}
      (nothing : sm.issued? = none)
      (waited : List.Forall₂ Waited sm.warps warps) :
      TickStep kernel sm memory warps memory
  | issued
      {index : Nat}
      {warp : Warp}
      {warps : List Warp}
      {memory' : MemorySystem}
      (selected : sm.issued? = some (index, warp))
      (step : IssueStep kernel sm.timed index warp memory warps memory') :
      TickStep kernel sm memory warps memory'

/-- The issued warp is the timed one at its position. -/
theorem issued?_timed
    [WarpScheduler σ]
    {sm : SM σ}
    {index : Nat}
    {warp : Warp}
    (selected : sm.issued? = some (index, warp)) :
    sm.timed[index]? = some warp := by
  unfold issued? at selected
  split at selected
  · cases selected
  · simp only [Option.bind_eq_some_iff, Option.map_eq_some_iff,
      Prod.mk.injEq] at selected
    obtain ⟨_, _, _, found, rfl, rfl⟩ := selected
    exact found

/-- Only a ready warp is issued. -/
theorem issued?_ready
    [WarpScheduler σ]
    [LawfulWarpScheduler σ]
    {sm : SM σ}
    {index : Nat}
    {warp : Warp}
    (selected : sm.issued? = some (index, warp)) :
    warp.state = .ready := by
  have found := issued?_timed selected
  unfold issued? at selected
  split at selected
  · cases selected
  · simp only [Option.bind_eq_some_iff, Option.map_eq_some_iff,
      Prod.mk.injEq] at selected
    obtain ⟨position, bySelection, _, _, rfl, rfl⟩ := selected
    unfold selected? at bySelection
    rw [Option.bind_eq_some_iff] at bySelection
    obtain ⟨scheduler, _, picked⟩ := bySelection
    obtain ⟨stalled, foundStalled, ready⟩ :=
      LawfulWarpScheduler.selected_ready picked
    have accounted :
        List.Forall₂ Accounted sm.tickStalls.warps sm.timed :=
      accountWarps_accounted _ _ _
    rw [(Pointwise.related_at accounted foundStalled found).state, ready]

/-- The issued warp differs from its former self by waiting. -/
theorem issued?_waited
    [WarpScheduler σ]
    {sm : SM σ}
    {index : Nat}
    {warp : Warp}
    (selected : sm.issued? = some (index, warp)) :
    ∃ before, sm.warps[index]? = some before ∧ Waited before warp :=
  Pointwise.origin sm.timed_waited (issued?_timed selected)

/-- Accounting for a lost cycle changes counters only. -/
theorem idle_ledger
    (sm : SM σ) :
    SameLedger sm sm.idle ∧
      sm.idle.warps = sm.warps ∧ sm.idle.scheduler = sm.scheduler := by
  unfold idle
  split
  · exact ⟨⟨rfl, rfl, rfl, rfl, rfl, rfl⟩, rfl, rfl⟩
  · exact ⟨⟨rfl, rfl, rfl, rfl, rfl, rfl⟩, rfl, rfl⟩

/-- The scheduler after a tick. -/
def rescheduled [WarpScheduler σ] (sm : SM σ) : Option σ :=
  if sm.isCompleted then
    sm.scheduler
  else
    sm.scheduler.map fun scheduler =>
      (WarpScheduler.selectWarp scheduler sm.tickStalls.warps).2

/-- The multiprocessor that a tick issues from, or that goes idle. -/
def accounted [WarpScheduler σ] (sm : SM σ) : SM σ :=
  { sm.tickStalls.accountSelection sm.selected? with
    scheduler := sm.rescheduled }

/-- The exact state after a tick, by the point at which it returns. -/
inductive Ticking [WarpScheduler σ]
    (kernel : Kernel)
    (sm : SM σ)
    (memory : MemorySystem) :
    SM σ → MemorySystem → Prop where
  | completed
      (done : sm.isCompleted = true) :
      Ticking kernel sm memory sm memory
  | unscheduled
      (uncompleted : sm.isCompleted = false)
      (none : sm.scheduler = none) :
      Ticking kernel sm memory
        { sm.tickStalls with
          counters := sm.tickStalls.counters.addStall .noReadyWarp }
        memory
  | idle
      (uncompleted : sm.isCompleted = false)
      (scheduled : sm.scheduler.isSome = true)
      (nothing : sm.issued? = none) :
      Ticking kernel sm memory sm.accounted.idle memory
  | issued
      {index : Nat}
      {warp : Warp}
      {after : SM σ}
      {memory' : MemorySystem}
      (uncompleted : sm.isCompleted = false)
      (scheduled : sm.scheduler.isSome = true)
      (selected : sm.issued? = some (index, warp))
      (issues :
        sm.accounted.issue index warp kernel memory =
          .ok (after, memory')) :
      Ticking kernel sm memory after memory'

/-- All warps of a completed multiprocessor are completed. -/
theorem completed_of_isCompleted
    {sm : SM σ}
    {warp : Warp}
    (done : sm.isCompleted = true)
    (member : warp ∈ sm.warps) :
    warp.state = .completed := by
  unfold isCompleted at done
  split at done
  · rename_i empty
    rw [Bool.and_eq_true, List.isEmpty_iff] at empty
    rw [empty.1] at member
    cases member
  · rw [List.all_eq_true] at done
    simpa using done warp member

/-- A tick that throws nothing returns at one of four points. -/
theorem ticking
    [WarpScheduler σ]
    {sm after : SM σ}
    {kernel : Kernel}
    {memory memory' : MemorySystem}
    (ran : sm.tick kernel memory = .ok (after, memory')) :
    Ticking kernel sm memory after memory' := by
  unfold tick at ran
  cases done : sm.isCompleted with
  | true =>
      rw [done, if_pos rfl] at ran
      cases ran
      exact .completed done
  | false =>
      rw [done, if_neg Bool.false_ne_true] at ran
      dsimp only at ran
      split at ran
      · rename_i unscheduled
        cases ran
        exact .unscheduled done unscheduled
      · rename_i scheduler scheduled
        change sm.scheduler = some scheduler at scheduled
        have isScheduled : sm.scheduler.isSome = true := by
          rw [scheduled]
          rfl
        have bySelection :
            (WarpScheduler.selectWarp scheduler sm.tickStalls.warps).1 =
              sm.selected? := by
          simp [selected?, scheduled]
        have next :
            some (WarpScheduler.selectWarp scheduler
              sm.tickStalls.warps).2 =
              sm.rescheduled := by
          simp [rescheduled, done, scheduled]
        have issuedShape :
            (sm.selected?.bind fun index =>
                (sm.tickStalls.accountSelection sm.selected?).warps[index]?.map
                  fun warp => (index, warp)) =
              sm.issued? := by
          simp [issued?, done, timed]
        rw [bySelection, next, issuedShape] at ran
        split at ran
        · rename_i nothing
          cases ran
          exact .idle done isScheduled nothing
        · rename_i index warp selected
          exact .issued done isScheduled selected ran

/-- A tick of a completed multiprocessor changes nothing. -/
theorem tick_completed
    [WarpScheduler σ]
    {sm after : SM σ}
    {kernel : Kernel}
    {memory memory' : MemorySystem}
    (done : sm.isCompleted = true)
    (ran : sm.tick kernel memory = .ok (after, memory')) :
    after = sm := by
  rw [tick, if_pos done] at ran
  cases ran
  rfl

/-- A tick that throws nothing is quiet or issues one warp. -/
theorem tick_ok
    [WarpScheduler σ]
    {sm after : SM σ}
    {kernel : Kernel}
    {memory memory' : MemorySystem}
    (ran : sm.tick kernel memory = .ok (after, memory')) :
    SameLedger sm after ∧
      after.scheduler = sm.rescheduled ∧
      TickStep kernel sm memory after.warps memory' := by
  cases ticking ran with
  | completed done =>
      refine
        ⟨⟨rfl, rfl, rfl, rfl, rfl, rfl⟩, by simp [rescheduled, done],
          .quiet (by simp [issued?, done]) ?_⟩
      rw [List.forall₂_same]
      exact fun warp _ => ⟨.refl warp, Or.inl rfl⟩
  | unscheduled _ unscheduled =>
      have same : sm.tickStalls.scheduler = sm.scheduler := rfl
      exact
        ⟨⟨rfl, rfl, rfl, rfl, rfl, rfl⟩,
          by simp [rescheduled, same, unscheduled],
          .quiet (by simp [issued?, selected?, unscheduled])
            sm.tickStalls_waited⟩
  | idle _ _ nothing =>
      obtain ⟨ledger, sameWarps, sameNext⟩ := idle_ledger sm.accounted
      rw [sameWarps, sameNext]
      exact
        ⟨⟨ledger.1, ledger.2, ledger.3, ledger.4, ledger.5, ledger.6⟩,
          rfl, .quiet nothing sm.timed_waited⟩
  | issued _ _ selected issues =>
      obtain ⟨ledger, sameNext, step⟩ :=
        issue_ok (by exact issued?_timed selected) issues
      exact
        ⟨⟨ledger.1, ledger.2, ledger.3, ledger.4, ledger.5, ledger.6⟩,
          sameNext, .issued selected step⟩

/-- A tick keeps the identity of every warp. -/
theorem TickStep.identities
    [WarpScheduler σ]
    {kernel : Kernel}
    {sm : SM σ}
    {memory memory' : MemorySystem}
    {after : List Warp}
    (step : TickStep kernel sm memory after memory') :
    after.map Warp.identity = sm.warps.map Warp.identity := by
  cases step with
  | quiet nothing waited =>
      exact Pointwise.map_eq waited fun related => related.core.identity
  | issued selected step =>
      rw [step.identities (issued?_timed selected)]
      exact
        Pointwise.map_eq sm.timed_waited fun related =>
          related.core.identity

/-- The state after a tick, or the same state when it throws. -/
def stepped
    [WarpScheduler σ]
    (kernel : Kernel)
    (memory : MemorySystem)
    (sm : SM σ) :
    SM σ :=
  match sm.tick kernel memory with
  | .ok (after, _) => after
  | .error _ => sm

/-- A tick that does not throw leads to that state. -/
theorem tick_stepped
    [WarpScheduler σ]
    {kernel : Kernel}
    {memory : MemorySystem}
    {sm : SM σ}
    (isOk : (sm.tick kernel memory).isOk = true) :
    ∃ memory',
      sm.tick kernel memory = .ok (sm.stepped kernel memory, memory') := by
  unfold stepped
  cases ran : sm.tick kernel memory with
  | error error =>
      rw [ran] at isOk
      cases isOk
  | ok pair => exact ⟨pair.2, rfl⟩

end SM

end SimSm
