import SimSm.GridMachine

namespace SimSm

/-!
# Runs of the GPU are runs of the grid machine

Dispatch and release, the tick phase, an iteration and the run loop, each
followed by the grid machine step by step.
-/

open Outcome GridState

namespace GPU

variable {σ : Type}
variable {kernel : Kernel}
variable {grid : Grid}
variable {config : SystemConfig}
variable {req : KernelResourceRequirements}
variable {numSms smId : Nat}
variable {state : GridState}

/-! ## Dispatch -/

/-- Dispatching to one multiprocessor dispatches pending blocks in order. -/
theorem dispatch_steps
    (wellFormed : grid.WellFormed)
    (inside : smId < numSms)
    {sm after : SM σ}
    {pending rest : List ThreadBlock}
    (shown : Shows grid req state smId sm)
    (isPending : Pending grid state pending)
    (ran : dispatch config req sm pending = .ok (after, rest)) :
    ∃ final,
      Steps kernel grid numSms state final ∧
        SameOff (· = smId) state final ∧
        Pending grid final rest ∧
        final.globalMemory = state.globalMemory ∧
        Shows grid req final smId after := by
  induction pending generalizing state sm with
  | nil =>
      cases ran
      exact
        ⟨state, .refl, .refl _ state, isPending, rfl, shown⟩
  | cons block blocks inductionHypothesis =>
      rw [dispatch] at ran
      split at ran
      · obtain ⟨middle, steps, same, pendingMiddle, global, shownMiddle⟩ :=
          @Shows.allocate σ kernel grid req numSms smId state sm
            wellFormed shown inside block blocks isPending
        obtain ⟨final, later, sameLater, pendingFinal, sameGlobal,
            shownFinal⟩ :=
          inductionHypothesis shownMiddle pendingMiddle ran
        exact
          ⟨final, steps.trans later, same.trans sameLater, pendingFinal,
            sameGlobal.trans global, shownFinal⟩
      · split at ran
        · cases ran
        · cases ran
          exact
            ⟨state, .refl, .refl _ state, isPending, rfl, shown⟩

/-- What a preparation of a multiprocessor does to the grid machine. -/
def PreparesSteps
    (kernel : Kernel)
    (grid : Grid)
    (req : KernelResourceRequirements)
    (numSms : Nat)
    (start prepare : SM σ → SM σ) :
    Prop :=
  ∀ (state : GridState) (smId : Nat) (sm : SM σ),
    Shows grid req state smId (start sm) →
    ∃ after,
      MovesOn kernel grid numSms (· = smId) state after ∧
        after.globalMemory = state.globalMemory ∧
        Shows grid req after smId (prepare sm)

/-- Clearing the multiprocessors takes no step of the grid machine. -/
theorem prepares_clear :
    PreparesSteps kernel grid req numSms
      (SM.clearWarps : SM σ → SM σ) SM.clearWarps :=
  fun state _ _ shown =>
    ⟨state, ⟨.refl, .refl _ state, fun _ => Iff.rfl⟩, rfl, shown⟩

/-- Releasing completed blocks retires them. -/
theorem prepares_release :
    PreparesSteps kernel grid req numSms (fun sm : SM σ => sm)
      SM.releaseCompletedBlocks :=
  fun _ _ _ shown => shown.release

/-- Preparing and dispatching to multiprocessors in order. -/
theorem dispatchAll_steps
    (wellFormed : grid.WellFormed)
    {start prepare : SM σ → SM σ}
    (prepares : PreparesSteps kernel grid req numSms start prepare)
    {sms after : List (SM σ)}
    {pending rest : List ThreadBlock}
    (inside : smId + sms.length ≤ numSms)
    (shown :
      ∀ (index : Nat) (sm : SM σ),
        sms[index]? = some sm →
        Shows grid req state (smId + index) (start sm))
    (isPending : Pending grid state pending)
    (ran :
      dispatchAll config req prepare sms pending = .ok (after, rest)) :
    ∃ final,
      Steps kernel grid numSms state final ∧
        SameOff (smId ≤ ·) state final ∧
        Pending grid final rest ∧
        final.globalMemory = state.globalMemory ∧
        ∀ (index : Nat) (sm : SM σ),
          after[index]? = some sm →
          Shows grid req final (smId + index) sm := by
  induction sms generalizing smId state pending after with
  | nil =>
      cases ran
      exact
        ⟨state, .refl, .refl _ state, isPending, rfl, by simp⟩
  | cons sm others inductionHypothesis =>
      obtain ⟨⟨first, middle⟩, dispatches, ran⟩ := except_bind_ok.mp ran
      obtain ⟨⟨afters, final⟩, continues, returned⟩ :=
        except_bind_ok.mp ran
      cases returned
      rw [List.length_cons] at inside
      have here (touched : Nat) (same : touched = smId) :
          smId ≤ touched :=
        same.ge
      obtain ⟨prepared, moves, global, shownPrepared⟩ :=
        prepares state smId sm (shown 0 sm rfl)
      have pendingPrepared : Pending grid prepared pending :=
        ⟨isPending.suffix, fun block member =>
          (moves.pending block.blockId).trans
            (isPending.stage block member)⟩
      obtain ⟨filled, steps, same, pendingFilled, globalFilled,
          shownFilled⟩ :=
        @dispatch_steps _ kernel grid config req numSms smId prepared
          wellFormed (by omega) _ _ _ _ shownPrepared pendingPrepared
          dispatches
      have off := moves.same.trans same
      have shownOthers
          (index : Nat)
          (other : SM σ)
          (found : others[index]? = some other) :
          Shows grid req filled (smId + 1 + index) (start other) := by
        refine off.shows (by omega) ?_
        rw [Nat.add_assoc, Nat.add_comm 1]
        exact shown (index + 1) other found
      obtain ⟨last, later, sameLater, pendingLast, globalLast, shownLast⟩ :=
        inductionHypothesis (by omega) shownOthers pendingFilled continues
      refine
        ⟨last, moves.steps.trans (steps.trans later),
          (off.mono here).trans (sameLater.mono fun _ after => by omega),
          pendingLast, globalLast.trans (globalFilled.trans global),
          fun index found isFound => ?_⟩
      cases index with
      | zero =>
          cases isFound
          exact sameLater.shows (by omega) shownFilled
      | succ index =>
          rw [← Nat.add_assoc, Nat.add_right_comm]
          exact shownLast index found isFound

/-! ## Ticks -/

/-- The tick phase ticks the multiprocessors in order. -/
theorem tickSms_steps
    [WarpScheduler σ]
    [LawfulWarpScheduler σ]
    {memoryConfig : MemoryAccessConfig}
    {sms after : List (SM σ)}
    {l2Cache l2Cache' : Cache}
    {globalMemory globalMemory' : GlobalMemory}
    {allDone : Bool}
    (shown :
      ∀ (index : Nat) (sm : SM σ),
        sms[index]? = some sm →
        Shows grid req state (smId + index) sm)
    (global : globalMemory = state.globalMemory)
    (ran :
      tickSms kernel memoryConfig sms l2Cache globalMemory =
        .ok (allDone, after, l2Cache', globalMemory')) :
    ∃ final,
      MovesOn kernel grid numSms (smId ≤ ·) state final ∧
        final.globalMemory = globalMemory' ∧
        ∀ (index : Nat) (sm : SM σ),
          after[index]? = some sm →
          Shows grid req final (smId + index) sm := by
  induction sms generalizing smId state after l2Cache globalMemory allDone with
  | nil =>
      cases ran
      exact
        ⟨state, ⟨.refl, .refl _ state, fun _ => Iff.rfl⟩, global.symm,
          by simp⟩
  | cons sm others inductionHypothesis =>
      have shownHere : Shows grid req state smId sm := shown 0 sm rfl
      have continues
          {middle : GridState}
          (same : SameOff (· = smId) state middle)
          (index : Nat)
          (other : SM σ)
          (found : others[index]? = some other) :
          Shows grid req middle (smId + 1 + index) other := by
        refine same.shows (by omega) ?_
        rw [Nat.add_assoc, Nat.add_comm 1]
        exact shown (index + 1) other found
      have wider (touched : Nat) (later : smId + 1 ≤ touched) :
          smId ≤ touched := by
        omega
      unfold tickSms at ran
      split at ran
      · obtain ⟨⟨done, ticked, _, _⟩, later, returned⟩ :=
          except_bind_ok.mp ran
        cases returned
        obtain ⟨final, moves, globalFinal, shownFinal⟩ :=
          inductionHypothesis (continues (.refl _ state)) global later
        refine
          ⟨final, ⟨moves.steps, moves.same.mono wider, moves.pending⟩,
            globalFinal, fun index found isFound => ?_⟩
        cases index with
        | zero =>
            cases isFound
            exact moves.same.shows (by omega) shownHere
        | succ index =>
            rw [← Nat.add_assoc, Nat.add_right_comm]
            exact shownFinal index found isFound
      · obtain ⟨⟨tickedSm, l2Now, globalNow⟩, now, next⟩ :=
          except_bind_ok.mp ran
        obtain ⟨⟨_, tickedOthers, _, _⟩, later, returned⟩ :=
          except_bind_ok.mp next
        cases returned
        obtain ⟨⟨ticked, memory'⟩, ticks, answered⟩ :=
          except_bind_ok.mp now
        cases answered
        obtain ⟨middle, moves, globalMiddle, shownMiddle⟩ :=
          @Shows.tick σ kernel grid req numSms smId state sm _ _ shownHere
            _ memory' ticked rfl global ticks memory'.l1Cache
        obtain ⟨final, movesLater, globalFinal, shownFinal⟩ :=
          inductionHypothesis (continues moves.same) globalMiddle.symm later
        refine
          ⟨final,
            ⟨moves.steps.trans movesLater.steps,
              (moves.same.mono fun _ same => same.ge).trans
                (movesLater.same.mono wider),
              fun blockId =>
                (movesLater.pending blockId).trans
                  (moves.pending blockId)⟩,
            globalFinal, fun index found isFound => ?_⟩
        cases index with
        | zero =>
            cases isFound
            exact movesLater.same.shows (by omega) shownMiddle
        | succ index =>
            rw [← Nat.add_assoc, Nat.add_right_comm]
            exact shownFinal index found isFound

/-! ## Launches and runs -/

/-- The grid machine shows the GPU. -/
structure ShownBy
    (grid : Grid)
    (req : KernelResourceRequirements)
    (state : GridState)
    (gpu : GPU σ) :
    Prop where
  sms :
    ∀ (smId : Nat) (sm : SM σ),
      gpu.sms[smId]? = some sm → Shows grid req state smId sm
  pending : Pending grid state gpu.remaining
  global : state.globalMemory = gpu.globalMemory

/-- Loading blocks moves the grid machine. -/
theorem loadBlocks_steps
    (wellFormed : grid.WellFormed)
    {gpu after : GPU σ}
    {start prepare : SM σ → SM σ}
    (prepares :
      PreparesSteps kernel grid gpu.req gpu.sms.length start prepare)
    (shown :
      ∀ (smId : Nat) (sm : SM σ),
        gpu.sms[smId]? = some sm →
        Shows grid gpu.req state smId (start sm))
    (isPending : Pending grid state gpu.remaining)
    (pendingBlocks : gpu.pendingBlocks = grid.blocks)
    (global : state.globalMemory = gpu.globalMemory)
    (ran : gpu.loadBlocks prepare = .ok after) :
    ∃ final,
      Steps kernel grid gpu.sms.length state final ∧
        after.ShownBy grid gpu.req final := by
  obtain ⟨⟨sms, rest⟩, dispatches, returned⟩ := except_bind_ok.mp ran
  cases returned
  have shownFromZero
      (index : Nat)
      (sm : SM σ)
      (found : gpu.sms[index]? = some sm) :
      Shows grid gpu.req state (0 + index) (start sm) := by
    rw [Nat.zero_add]
    exact shown index sm found
  obtain ⟨final, steps, _, pendingFinal, globalFinal, shownFinal⟩ :=
    dispatchAll_steps wellFormed prepares (Nat.zero_add _).le shownFromZero
      isPending dispatches
  refine ⟨final, steps, ⟨fun smId sm found => ?_, ?_, ?_⟩⟩
  · have shownSm := shownFinal smId sm found
    rwa [Nat.zero_add] at shownSm
  · obtain ⟨earlier, order⟩ := pendingFinal.suffix
    have remaining :
        ({ gpu with
            sms := sms
            currentBlockIdx := gpu.pendingBlocks.length - rest.length } :
          GPU σ).remaining = rest :=
      remaining_after (order.trans pendingBlocks.symm)
    rw [remaining]
    exact pendingFinal
  · exact globalFinal.trans global

/-- The blocks of no grid yet, with the memories of a GPU. -/
def gridState (gpu : GPU σ) : GridState where
  stage := fun _ => .pending
  shared := fun smId =>
    (gpu.sms[smId]?.map SM.sharedMemory).getD (.new 0 0)
  globalMemory := gpu.globalMemory

/-- A launch dispatches the first blocks. -/
theorem launchKernel_steps
    (wellFormed : grid.WellFormed)
    {gpu after : GPU σ}
    (ran : gpu.launchKernel grid config req = .ok after) :
    ∃ final,
      Steps kernel grid gpu.sms.length gpu.gridState final ∧
        after.ShownBy grid req final := by
  let cleared : GPU σ :=
    { gpu with
      config := config
      req := req
      pendingBlocks := grid.blocks
      currentBlockIdx := 0 }
  have shown
      (smId : Nat)
      (sm : SM σ)
      (found : cleared.sms[smId]? = some sm) :
      Shows grid cleared.req gpu.gridState smId sm.clearWarps := by
    have vacant := sm.clearWarps_vacant
    refine ⟨?_, ⟨[], by simp, vacant.houses⟩, ?_, nofun⟩
    · change (gpu.sms[smId]?.map SM.sharedMemory).getD _ = _
      rw [show gpu.sms[smId]? = some sm from found]
      rfl
    · rw [vacant.residentBlocks]
      simp
  have isPending : Pending grid gpu.gridState cleared.remaining :=
    ⟨List.suffix_refl _, fun block member => by
      simp only [gridState, true_iff]
      exact member⟩
  exact
    @loadBlocks_steps σ kernel grid gpu.gridState wellFormed cleared after
      _ _ prepares_clear shown isPending rfl rfl ran

/-- An iteration refills and ticks. -/
theorem iterate_steps
    [WarpScheduler σ]
    [LawfulWarpScheduler σ]
    (wellFormed : grid.WellFormed)
    {gpu after : GPU σ}
    {allDone : Bool}
    (shown : gpu.ShownBy grid gpu.req state)
    (pendingBlocks : gpu.pendingBlocks = grid.blocks)
    (ran : gpu.iterate kernel = .ok (allDone, after)) :
    ∃ final,
      Steps kernel grid gpu.sms.length state final ∧
        after.ShownBy grid gpu.req final := by
  obtain ⟨refilled, refills, ran⟩ := except_bind_ok.mp ran
  obtain ⟨⟨done, sms, l2Cache, globalMemory⟩, ticks, returned⟩ :=
    except_bind_ok.mp ran
  cases returned
  obtain ⟨middle, steps, shownMiddle⟩ :=
    loadBlocks_steps wellFormed prepares_release shown.sms shown.pending
      pendingBlocks shown.global refills
  have shownFromZero
      (index : Nat)
      (sm : SM σ)
      (found : refilled.sms[index]? = some sm) :
      Shows grid gpu.req middle (0 + index) sm := by
    rw [Nat.zero_add]
    exact shownMiddle.sms index sm found
  obtain ⟨final, moves, global, shownFinal⟩ :=
    @tickSms_steps σ kernel grid gpu.req gpu.sms.length 0 middle _ _ _ _ _ _
      _ _ _ _ shownFromZero shownMiddle.global.symm ticks
  refine
    ⟨final, steps.trans moves.steps, ⟨fun smId sm found => ?_, ?_, global⟩⟩
  · have shownSm := shownFinal smId sm found
    rwa [Nat.zero_add] at shownSm
  · exact
      ⟨shownMiddle.pending.suffix, fun block member =>
        (moves.pending block.blockId).trans
          (shownMiddle.pending.stage block member)⟩

/-- The run loop iterates. -/
theorem runToCompletion_steps
    [WarpScheduler σ]
    [LawfulWarpScheduler σ]
    (wellFormed : grid.WellFormed)
    {events : List DispatchEvent}
    {fuel : Nat}
    {gpu after : GPU σ}
    (tracked : gpu.Tracked grid config req numSms events)
    (shown : gpu.ShownBy grid req state)
    (ran : gpu.runToCompletion kernel fuel = some (.ok after)) :
    ∃ final,
      Steps kernel grid numSms state final ∧
        after.ShownBy grid req final := by
  induction fuel generalizing gpu state events with
  | zero => cases ran
  | succ fuel inductionHypothesis =>
      rw [runToCompletion] at ran
      cases iterates : gpu.iterate kernel with
      | error error =>
          rw [iterates] at ran
          cases ran
      | ok pair =>
          obtain ⟨allDone, middle⟩ := pair
          rw [iterates] at ran
          obtain ⟨trackedMiddle, _⟩ :=
            iterate_tracked wellFormed tracked iterates
          rw [← tracked.sameReq] at shown
          obtain ⟨next, steps, shownNext⟩ :=
            iterate_steps wellFormed shown tracked.pendingBlocks iterates
          rw [tracked.sameReq] at shownNext
          rw [tracked.smCount] at steps
          cases allDone with
          | true =>
              cases ran
              exact ⟨next, steps, shownNext⟩
          | false =>
              obtain ⟨final, later, shownFinal⟩ :=
                inductionHypothesis trackedMiddle shownNext ran
              exact ⟨final, steps.trans later, shownFinal⟩

end GPU

namespace GridState

variable {kernel : Kernel}
variable {grid : Grid}
variable {numSms : Nat}

/-- Blocks are resident on the multiprocessors there are. -/
theorem Steps.inside
    {before after : GridState}
    (steps : Steps kernel grid numSms before after)
    (initially :
      ∀ blockId smId warps,
        before.stage blockId = .resident smId warps → smId < numSms) :
    ∀ blockId smId warps,
      after.stage blockId = .resident smId warps → smId < numSms := by
  refine
    @Steps.invariant kernel grid numSms before after
      (fun state =>
        ∀ blockId smId warps,
          state.stage blockId = .resident smId warps → smId < numSms)
      ?_ steps initially
  intro before after step inside blockId smId warps found
  cases step with
  | dispatch member isPending here =>
      rename_i block home
      by_cases same : blockId = block.blockId
      · subst same
        rw [setStage_self] at found
        cases found
        exact here
      · rw [setStage_of_ne same] at found
        exact inside blockId smId warps found
  | retire isResident completed =>
      rename_i retired home others
      by_cases same : blockId = retired
      · subst same
        rw [setStage_self] at found
        cases found
      · rw [setStage_of_ne same] at found
        exact inside blockId smId warps found
  | wait waits =>
      rename_i stage
      have related := waits blockId
      change stage blockId = _ at found
      rw [found] at related
      generalize earlier : before.stage blockId = stageBefore at related
      cases related with
      | resident waited => exact inside blockId smId _ earlier
  | issue isResident ofBlock isWarp ready sharedBefore globalBefore issued =>
      rename_i issuing home _ _ _ _ _ _
      change Function.update _ issuing _ blockId = _ at found
      by_cases same : blockId = issuing
      · subst same
        rw [Function.update_self] at found
        cases found
        exact inside blockId _ _ isResident
      · rw [Function.update_of_ne same] at found
        exact inside blockId smId warps found

end GridState

namespace GPU

variable {σ : Type}
variable {kernel : Kernel}
variable {grid : Grid}
variable {config : SystemConfig}
variable {req : KernelResourceRequirements}

/--
A launch and a run that return normally take the grid machine from all blocks
pending to, when no warp is completed beforehand, all blocks retired.
-/
theorem launchAndRun_steps
    [WarpScheduler σ]
    [LawfulWarpScheduler σ]
    (wellFormed : grid.WellFormed)
    {fuel : Nat}
    {gpu after : GPU σ}
    (ran : gpu.launchAndRun grid config req kernel fuel = some (.ok after)) :
    ∃ final,
      Steps kernel grid gpu.sms.length gpu.gridState final ∧
        final.globalMemory = after.globalMemory ∧
        (gpu.sms ≠ [] →
          grid.Unstarted →
          ∀ block ∈ grid.blocks,
            ∃ smId, final.stage block.blockId = .retired smId) := by
  obtain ⟨launched, launches, runs⟩ := launchAndRun_ok ran
  have started := launch_tracked wellFormed launches
  obtain ⟨tracked, ended⟩ := run_tracked wellFormed started runs
  obtain ⟨middle, steps, shownMiddle⟩ :=
    @launchKernel_steps σ kernel grid config req wellFormed _ _ launches
  obtain ⟨final, later, shown⟩ :=
    runToCompletion_steps wellFormed started shownMiddle runs
  refine
    ⟨final, steps.trans later, shown.global, fun some unstarted block member =>
      ?_⟩
  obtain ⟨none, vacant⟩ :=
    ended (List.length_pos_of_ne_nil some) unstarted
  have notPending : final.stage block.blockId ≠ .pending := by
    intro isPending
    have isRemaining :=
      (shown.pending.stage block member).mp isPending
    rw [none] at isRemaining
    cases isRemaining
  have inside := Steps.inside (steps.trans later) nofun
  cases stage : final.stage block.blockId with
  | pending => exact (notPending stage).elim
  | retired smId => exact ⟨smId, rfl⟩
  | resident smId warps =>
      have isSm := inside block.blockId smId warps stage
      rw [← tracked.smCount] at isSm
      have found := List.getElem?_eq_getElem isSm
      have isResident :=
        (shown.sms smId _ found).resident block.blockId warps stage
      rw [vacant _ (List.mem_of_getElem? found)] at isResident
      cases isResident

end GPU

end SimSm
