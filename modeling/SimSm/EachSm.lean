import SimSm.Dispatch

namespace SimSm

/-!
# What every multiprocessor keeps over a run

A run only ever admits blocks to a multiprocessor, releases completed ones and
ticks it.  What these three keep holds of every multiprocessor when the run
ends.
-/

open Outcome

/-- A property that admission, release and ticks of a run keep. -/
structure SM.Keeps
    {σ : Type}
    [WarpScheduler σ]
    (kernel : Kernel)
    (admissible : ThreadBlock → Prop)
    (holds : SM σ → Prop) : Prop where
  allocate :
    ∀ {sm : SM σ} {block : ThreadBlock} {req : KernelResourceRequirements},
      admissible block →
      holds sm →
      holds (sm.allocateBlock block req)
  release :
    ∀ {sm : SM σ},
      holds sm →
      holds sm.releaseCompletedBlocks
  tick :
    ∀ {sm after : SM σ} {memory memory' : MemorySystem},
      memory.l1Cache = sm.l1Cache →
      holds sm →
      sm.tick kernel memory = .ok (after, memory') →
      holds
        { after with
          sharedMemory := memory'.sharedMemory
          l1Cache := memory'.l1Cache }

namespace GPU

variable {σ : Type}
variable [WarpScheduler σ]
variable {kernel : Kernel}
variable {admissible : ThreadBlock → Prop}
variable {holds : SM σ → Prop}
variable {gpu after : GPU σ}

/-- Dispatching to one multiprocessor keeps what admission keeps. -/
theorem dispatch_each
    (keeps : SM.Keeps kernel admissible holds)
    {config : SystemConfig}
    {req : KernelResourceRequirements}
    {sm loaded : SM σ}
    {pending rest : List ThreadBlock}
    (areAdmissible : ∀ block ∈ pending, admissible block)
    (initially : holds sm)
    (ran : dispatch config req sm pending = .ok (loaded, rest)) :
    holds loaded ∧ ∀ block ∈ rest, admissible block := by
  induction pending generalizing sm with
  | nil =>
      cases ran
      exact ⟨initially, areAdmissible⟩
  | cons block others inductionHypothesis =>
      unfold dispatch at ran
      split at ran
      · obtain ⟨now, later⟩ := List.forall_mem_cons.mp areAdmissible
        exact inductionHypothesis later (keeps.allocate now initially) ran
      · split at ran
        · cases ran
        · cases ran
          exact ⟨initially, areAdmissible⟩

/-- Dispatching to all multiprocessors keeps it of all. -/
theorem dispatchAll_each
    (keeps : SM.Keeps kernel admissible holds)
    {config : SystemConfig}
    {req : KernelResourceRequirements}
    {prepare : SM σ → SM σ}
    {sms loaded : List (SM σ)}
    {pending rest : List ThreadBlock}
    (areAdmissible : ∀ block ∈ pending, admissible block)
    (initially : ∀ sm ∈ sms, holds (prepare sm))
    (ran : dispatchAll config req prepare sms pending = .ok (loaded, rest)) :
    loaded.length = sms.length ∧ ∀ sm ∈ loaded, holds sm := by
  induction sms generalizing pending loaded with
  | nil =>
      cases ran
      exact ⟨rfl, fun _ member => (List.not_mem_nil member).elim⟩
  | cons sm others inductionHypothesis =>
      obtain ⟨⟨first, left⟩, dispatched, later⟩ := except_bind_ok.mp ran
      obtain ⟨⟨loadedOthers, last⟩, all, returned⟩ :=
        except_bind_ok.mp later
      cases returned
      obtain ⟨here, elsewhere⟩ := List.forall_mem_cons.mp initially
      obtain ⟨loadedHere, stillAdmissible⟩ :=
        dispatch_each keeps areAdmissible here dispatched
      obtain ⟨length, loadedElsewhere⟩ :=
        inductionHypothesis stillAdmissible elsewhere all
      exact
        ⟨congrArg (· + 1) length,
          List.forall_mem_cons.mpr ⟨loadedHere, loadedElsewhere⟩⟩

/-- Loading blocks keeps it of all, and the blocks of the grid. -/
theorem loadBlocks_each
    (keeps : SM.Keeps kernel admissible holds)
    {prepare : SM σ → SM σ}
    (areAdmissible : ∀ block ∈ gpu.pendingBlocks, admissible block)
    (initially : ∀ sm ∈ gpu.sms, holds (prepare sm))
    (ran : gpu.loadBlocks prepare = .ok after) :
    after.pendingBlocks = gpu.pendingBlocks ∧
      after.sms.length = gpu.sms.length ∧
      ∀ sm ∈ after.sms, holds sm := by
  obtain ⟨⟨sms, rest⟩, dispatched, returned⟩ := except_bind_ok.mp ran
  cases returned
  exact
    ⟨rfl,
      dispatchAll_each keeps
        (fun block member => areAdmissible block (List.mem_of_mem_drop member))
        initially dispatched⟩

/-- The tick phase keeps it of all, and ends when all are completed. -/
theorem tickSms_each
    (keeps : SM.Keeps kernel admissible holds)
    {config : MemoryAccessConfig}
    {sms ticked : List (SM σ)}
    {l2Cache l2Cache' : Cache}
    {globalMemory globalMemory' : GlobalMemory}
    {allDone : Bool}
    (initially : ∀ sm ∈ sms, holds sm)
    (ran :
      tickSms kernel config sms l2Cache globalMemory =
        .ok (allDone, ticked, l2Cache', globalMemory')) :
    ticked.length = sms.length ∧
      (∀ sm ∈ ticked, holds sm) ∧
      (allDone = true → ∀ sm ∈ ticked, sm.isCompleted = true) := by
  induction sms generalizing ticked l2Cache globalMemory allDone with
  | nil =>
      cases ran
      exact
        ⟨rfl, initially, fun _ _ member => (List.not_mem_nil member).elim⟩
  | cons sm others inductionHypothesis =>
      obtain ⟨here, elsewhere⟩ := List.forall_mem_cons.mp initially
      unfold tickSms at ran
      split at ran
      · rename_i completed
        obtain ⟨⟨_, tickedOthers, _, _⟩, later, returned⟩ :=
          except_bind_ok.mp ran
        cases returned
        obtain ⟨length, kept, done⟩ := inductionHypothesis elsewhere later
        exact
          ⟨congrArg (· + 1) length, List.forall_mem_cons.mpr ⟨here, kept⟩,
            fun allDone =>
              List.forall_mem_cons.mpr ⟨completed, done allDone⟩⟩
      · obtain ⟨⟨tickedSm, _, _⟩, now, next⟩ := except_bind_ok.mp ran
        obtain ⟨⟨_, tickedOthers, _, _⟩, later, returned⟩ :=
          except_bind_ok.mp next
        cases returned
        obtain ⟨⟨middle, memory⟩, ticks, returned⟩ :=
          except_bind_ok.mp now
        cases returned
        obtain ⟨length, kept, _⟩ := inductionHypothesis elsewhere later
        exact
          ⟨congrArg (· + 1) length,
            List.forall_mem_cons.mpr ⟨keeps.tick rfl here ticks, kept⟩,
            fun impossible => (Bool.false_ne_true impossible).elim⟩

/-- A run to completion keeps it of all, and leaves all completed. -/
theorem runToCompletion_each
    (keeps : SM.Keeps kernel admissible holds)
    {fuel : Nat}
    (areAdmissible : ∀ block ∈ gpu.pendingBlocks, admissible block)
    (initially : ∀ sm ∈ gpu.sms, holds sm)
    (ran : runToCompletion kernel fuel gpu = some (.ok after)) :
    after.sms.length = gpu.sms.length ∧
      ∀ sm ∈ after.sms, holds sm ∧ sm.isCompleted = true := by
  induction fuel generalizing gpu with
  | zero => cases ran
  | succ fuel inductionHypothesis =>
      unfold runToCompletion at ran
      cases iterates : gpu.iterate kernel with
      | error error =>
          rw [iterates] at ran
          cases ran
      | ok pair =>
          rcases pair with ⟨allDone, middle⟩
          rw [iterates] at ran
          obtain ⟨refilled, refills, rest⟩ := except_bind_ok.mp iterates
          obtain ⟨⟨_, sms, l2Cache, globalMemory⟩, ticks, returned⟩ :=
            except_bind_ok.mp rest
          cases returned
          obtain ⟨samePending, sameLength, refilledAll⟩ :=
            loadBlocks_each keeps areAdmissible
              (fun sm member => keeps.release (initially sm member)) refills
          obtain ⟨length, tickedAll, done⟩ :=
            tickSms_each keeps refilledAll ticks
          rw [sameLength] at length
          cases allDone with
          | true =>
              cases ran
              exact
                ⟨length, fun sm member =>
                  ⟨tickedAll sm member, done rfl sm member⟩⟩
          | false =>
              obtain ⟨finalLength, final⟩ :=
                inductionHypothesis (samePending ▸ areAdmissible) tickedAll
                  ran
              exact ⟨finalLength.trans length, final⟩

/-- The same from a launch on, which clears every multiprocessor. -/
theorem launchAndRun_each
    (keeps : SM.Keeps kernel admissible holds)
    {grid : Grid}
    {config : SystemConfig}
    {req : KernelResourceRequirements}
    {fuel : Nat}
    (areAdmissible : ∀ block ∈ grid.blocks, admissible block)
    (initially : ∀ sm ∈ gpu.sms, holds sm.clearWarps)
    (ran : gpu.launchAndRun grid config req kernel fuel = some (.ok after)) :
    after.sms.length = gpu.sms.length ∧
      ∀ sm ∈ after.sms, holds sm ∧ sm.isCompleted = true := by
  obtain ⟨launched, launches, runs⟩ := launchAndRun_ok ran
  obtain ⟨samePending, sameLength, launchedAll⟩ :=
    @loadBlocks_each σ _ kernel admissible holds
      { gpu with
        config := config
        req := req
        pendingBlocks := grid.blocks
        currentBlockIdx := 0 }
      launched keeps SM.clearWarps areAdmissible initially launches
  have launchedAdmissible :
      ∀ block ∈ launched.pendingBlocks, admissible block := by
    rw [samePending]
    exact areAdmissible
  obtain ⟨length, final⟩ :=
    runToCompletion_each keeps launchedAdmissible launchedAll runs
  exact ⟨length.trans sameLength, final⟩

end GPU

end SimSm
