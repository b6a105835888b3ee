import SimSm.Conservation
import SimSm.Interleaved
import SimSm.SafeExecution

namespace SimSm

/-!
# Runs that do not throw

A run throws for a block that has no room, or for an instruction that a warp
cannot execute.  The warps only get to where interleaved agents do, so when no
interleaving leads to such an instruction, no run throws for one.
-/

open Interleaving Outcome GridState

/-! ## Where nothing throws -/

/-- What a path needs to execute an instruction on global memory. -/
structure PathState.Safe
    (size : Nat)
    (inst : Instruction)
    (state : PathState) : Prop where
  wellFormed : inst.WellFormed
  resumes : inst.opcode = .sync → state.pending ≠ []
  lanes : state.lanes.length ≤ 32
  inside :
    ∀ access ∈ state.accesses inst,
      IsGlobal access.address ∧ access.address < size

/-- A run that can execute its next instruction. -/
def PathRun.Safe (kernel : Kernel) (size : Nat) (run : PathRun) : Prop :=
  run.completed = false →
    ∀ inst,
      kernel.fetch? run.paths.current.pc = some inst →
      run.paths.Safe size inst

section Runs

variable {kernel : Kernel}
variable {size : Nat}
variable {run : PathRun}
variable {performed : List (Access Nat Word)}
variable {access : Access Nat Word}

/-- What a run accesses next is accessed by its next instruction. -/
theorem PathRun.mem_accesses
    (accesses : kernel.agent.accesses run = some performed)
    (member : access ∈ performed) :
    run.completed = false ∧
      ∃ inst,
        kernel.fetch? run.paths.current.pc = some inst ∧
          access ∈ run.paths.accesses inst := by
  change run.accesses? kernel = some performed at accesses
  unfold PathRun.accesses? at accesses
  split at accesses
  · cases accesses
  · rename_i running
    rw [Bool.not_eq_true] at running
    cases fetched : kernel.fetch? run.paths.current.pc with
    | none =>
        rw [fetched] at accesses
        cases accesses
        cases member
    | some inst =>
        rw [fetched] at accesses
        dsimp only at accesses
        split at accesses
        · cases accesses
        · obtain ⟨_, _, rfl⟩ := Option.map_eq_some_iff.mp accesses
          exact ⟨running, inst, rfl, member⟩

/-- A safe run accesses global memory only. -/
theorem PathRun.Safe.isGlobal
    (safe : run.Safe kernel size)
    (accesses : kernel.agent.accesses run = some performed)
    (member : access ∈ performed) :
    IsGlobal access.address := by
  obtain ⟨running, inst, fetched, isAccess⟩ :=
    PathRun.mem_accesses accesses member
  exact ((safe running inst fetched).inside access isAccess).1

/-- The number of lanes never changes. -/
theorem PathRun.nextWith_lanes
    (view : Nat → Word) :
    (run.nextWith kernel view).paths.lanes.length =
      run.paths.lanes.length := by
  unfold PathRun.nextWith
  cases kernel.fetch? run.paths.current.pc with
  | none => rfl
  | some inst =>
      dsimp only
      cases executes : run.paths.executeWith inst view with
      | none => rfl
      | some next =>
          obtain ⟨_, _, rfl⟩ := Option.map_eq_some_iff.mp executes
          simp only [Option.map_some, Option.getD_some, PathRun.after,
            PathState.settle]
          split
          · split <;> simp
          · simp

/-- A run can execute what is well formed and in bounds. -/
theorem PathRun.Safe.of_inside
    (wellFormed :
      ∀ inst ∈ kernel.instructions, inst.WellFormed ∧ inst.opcode ≠ .sync)
    (lanes : run.paths.lanes.length ≤ 32)
    (inside :
      ∀ performed,
        kernel.agent.accesses run = some performed →
        ∀ access ∈ performed,
          IsGlobal access.address ∧ access.address < size) :
    run.Safe kernel size := by
  intro running inst fetched
  obtain ⟨isWellFormed, notSync⟩ :=
    wellFormed inst (Kernel.fetch?_mem fetched)
  refine ⟨isWellFormed, fun sync => (notSync sync).elim, lanes, ?_⟩
  have notBarrier : inst.opcode ≠ .barrier := by
    intro opcode
    simp [Instruction.WellFormed, Instruction.Regular,
      Instruction.Arithmetic, Opcode.isControl, opcode] at isWellFormed
  apply inside
  change run.accesses? kernel = some _
  rw [PathRun.accesses?, running, fetched]
  dsimp only
  rw [if_neg Bool.false_ne_true, if_neg notBarrier, Option.map_eq_some_iff]
  unfold PathState.execute
  split
  · exact ⟨_, rfl, rfl⟩
  · exact ⟨_, rfl, rfl⟩
  · rename_i sync
    exact (notSync sync).elim
  · exact ⟨_, rfl, rfl⟩

/-- Interleaved agents have the lanes that they start with. -/
theorem Grid.lanes_of_interleaves
    {grid : Grid}
    (narrow :
      ∀ name warp,
        grid.warp? name = some warp → warp.threads.length ≤ 32)
    {here : Nat × Nat → PathRun}
    {initial memory : Nat → Word}
    (interleaved :
      Interleaves kernel.agent grid.startOf initial here memory)
    (name : Nat × Nat) :
    (here name).paths.lanes.length ≤ 32 := by
  induction interleaved generalizing name with
  | start =>
      unfold Grid.startOf
      cases found : grid.warp? name with
      | none => exact Nat.zero_le _
      | some warp =>
          change warp.lanes.length ≤ 32
          rw [Warp.lanes, List.length_map]
          exact narrow name warp found
  | @step here memory moved _ sofar _ inductionHypothesis =>
      by_cases same : name = moved
      · subst same
        rw [Function.update_self]
        exact
          (PathRun.nextWith_lanes memory).trans_le (inductionHypothesis name)
      · rw [Function.update_of_ne same]
        exact inductionHypothesis name

end Runs

/-- Every warp that may issue can execute its next instruction. -/
def GridState.Safe (kernel : Kernel) (state : GridState) : Prop :=
  ∀ blockId smId warps,
    state.stage blockId = .resident smId warps →
    ∀ warp ∈ warps,
      warp.state = .ready →
      ∀ inst,
        kernel.fetch? warp.warpPc = some inst →
        warp.paths.Safe state.globalMemory.size inst

/-- Warps that stand where safe agents are can execute. -/
theorem Grid.Stands.safe
    {grid : Grid}
    {kernel : Kernel}
    {here : Nat × Nat → PathRun}
    {state : GridState}
    (stands : grid.Stands here state)
    (safe : ∀ name, (here name).Safe kernel state.globalMemory.size) :
    state.Safe kernel := by
  intro blockId smId warps isResident warp member ready inst fetched
  obtain ⟨position, found⟩ := List.mem_iff_getElem?.mp member
  have isAt :=
    (stands.resident blockId smId warps isResident).1 position warp found
  rw [isAt.paths]
  refine safe (blockId, position) ?_ inst ?_
  · rw [← Bool.not_eq_true, ← isAt.completed, ready]
    exact nofun
  · rw [← isAt.paths]
    exact fetched

/-! ## Ticks -/

namespace SM

variable {σ : Type}
variable {kernel : Kernel}

/-- A warp that can execute its next instruction is issued without a throw. -/
theorem issue_returns
    {sm : SM σ}
    {index : Nat}
    {warp : Warp}
    {memory : MemorySystem}
    (inUse : memory.InUse)
    (safe :
      ∀ inst,
        kernel.fetch? warp.warpPc = some inst →
        warp.paths.Safe memory.globalMemory.size inst) :
    ∃ after memory',
      sm.issue index warp kernel memory = .ok (after, memory') ∧
        memory'.InUse := by
  unfold issue
  cases fetched : kernel.fetch? warp.warpPc with
  | none => exact ⟨_, memory, rfl, inUse⟩
  | some inst =>
      obtain ⟨wellFormed, resumes, lanes, inside⟩ := safe inst fetched
      have addressable :
          MemorySystem.Addressable memory
            ((warp.paths.accesses inst).map Access.address) := by
        refine ⟨fun first isFirst second isSecond => ?_, fun address isOne => ?_⟩
        · obtain ⟨access, member, rfl⟩ := List.mem_map.mp isFirst
          obtain ⟨other, isOther, rfl⟩ := List.mem_map.mp isSecond
          exact (inside access member).1.trans (inside other isOther).1.symm
        · obtain ⟨access, member, rfl⟩ := List.mem_map.mp isOne
          obtain ⟨isGlobal, inBounds⟩ := inside access member
          have cell :
              MemorySystem.cellOf access.address = .global access.address :=
            if_neg (by rw [isGlobal]; exact Bool.false_ne_true)
          rw [cell]
          exact inBounds
      have threads : warp.threads.length ≤ 32 := by
        rwa [Warp.paths, Warp.lanes, List.length_map] at lanes
      obtain ⟨result, executed, memory', ran, inUseAfter⟩ :=
        InstructionExecutor.execute_returns wellFormed resumes threads inUse
          addressable
      have notBarrier : result.status ≠ .barrierReached := by
        intro reached
        have opcode :=
          (InstructionExecutor.execute_ok ran).barrier.mp reached
        simp [Instruction.WellFormed, Instruction.Regular,
          Instruction.Arithmetic, Opcode.isControl, opcode] at wellFormed
      dsimp only
      rw [ran]
      dsimp only
      rw [if_neg notBarrier]
      exact ⟨_, memory', rfl, inUseAfter⟩

/-- A multiprocessor whose selected warp can execute ticks without a throw. -/
theorem tick_returns
    [WarpScheduler σ]
    {sm : SM σ}
    {memory : MemorySystem}
    (inUse : memory.InUse)
    (safe :
      ∀ index warp,
        sm.issued? = some (index, warp) →
        ∀ inst,
          kernel.fetch? warp.warpPc = some inst →
          warp.paths.Safe memory.globalMemory.size inst) :
    ∃ after memory',
      sm.tick kernel memory = .ok (after, memory') ∧ memory'.InUse := by
  unfold tick
  cases done : sm.isCompleted with
  | true => exact ⟨sm, memory, rfl, inUse⟩
  | false =>
      rw [if_neg Bool.false_ne_true]
      dsimp only
      split
      · exact ⟨_, memory, rfl, inUse⟩
      · rename_i scheduler scheduled
        change sm.scheduler = some scheduler at scheduled
        have bySelection :
            (WarpScheduler.selectWarp scheduler sm.tickStalls.warps).1 =
              sm.selected? := by
          simp [selected?, scheduled]
        have issuedShape :
            (sm.selected?.bind fun index =>
                (sm.tickStalls.accountSelection sm.selected?).warps[index]?.map
                  fun warp => (index, warp)) =
              sm.issued? := by
          simp [issued?, done, timed]
        rw [bySelection, issuedShape]
        split
        · exact ⟨_, memory, rfl, inUse⟩
        · rename_i index warp selected
          exact issue_returns inUse (safe index warp selected)

end SM

namespace GPU

variable {σ : Type}
variable {kernel : Kernel}
variable {grid : Grid}
variable {config : SystemConfig}
variable {req : KernelResourceRequirements}
variable {numSms smId : Nat}
variable {state : GridState}

/-- The warp that a shown multiprocessor issues can execute. -/
theorem issued_safe
    [WarpScheduler σ]
    [LawfulWarpScheduler σ]
    {sm : SM σ}
    (shown : Shows grid req state smId sm)
    (safe :
      ∀ final,
        Steps kernel grid numSms state final → final.Safe kernel)
    {index : Nat}
    {warp : Warp}
    (selected : sm.issued? = some (index, warp))
    {inst : Instruction}
    (fetched : kernel.fetch? warp.warpPc = some inst) :
    warp.paths.Safe state.globalMemory.size inst := by
  obtain ⟨blockId, inBlock, isResident⟩ := shown.home selected
  have isMember : warp ∈ SM.ofBlock blockId sm.timed := by
    refine
      List.mem_filter.mpr
        ⟨List.mem_of_getElem? (SM.issued?_timed selected), ?_⟩
    simp [SM.belongsTo, inBlock]
  have stage :=
    @timed_stage smId state sm.timed _ _ (shown.stage blockId isResident)
  have waits :=
    @Shows.waits _ kernel grid req numSms smId state sm shown _
      sm.timed_waited
  exact
    safe _ waits.steps blockId smId _ stage warp isMember
      (SM.issued?_ready selected) inst fetched

/-- The tick phase returns from where every step leads to safe states. -/
theorem tickSms_returns
    [WarpScheduler σ]
    [LawfulWarpScheduler σ]
    {memoryConfig : MemoryAccessConfig}
    {sms : List (SM σ)}
    {l2Cache : Cache}
    {globalMemory : GlobalMemory}
    (shown :
      ∀ (index : Nat) (sm : SM σ),
        sms[index]? = some sm →
        Shows grid req state (smId + index) sm)
    (global : globalMemory = state.globalMemory)
    (safe :
      ∀ final,
        Steps kernel grid numSms state final → final.Safe kernel)
    (l1InUse : ∀ sm ∈ sms, sm.l1Cache.InUse)
    (l2InUse : l2Cache.InUse) :
    ∃ allDone after l2Cache' globalMemory',
      tickSms kernel memoryConfig sms l2Cache globalMemory =
          .ok (allDone, after, l2Cache', globalMemory') ∧
        (∀ sm ∈ after, sm.l1Cache.InUse) ∧ l2Cache'.InUse := by
  induction sms generalizing smId state l2Cache globalMemory with
  | nil => exact ⟨_, _, _, _, rfl, nofun, l2InUse⟩
  | cons sm others inductionHypothesis =>
      rw [List.forall_mem_cons] at l1InUse
      have shownHere : Shows grid req state smId sm := shown 0 sm rfl
      have continues
          {middle : GridState}
          (same : SameOff (· = smId) state middle)
          (index : Nat)
          (other : SM σ)
          (found : others[index]? = some other) :
          Shows grid req middle (smId + 1 + index) other := by
        refine same.shows (by omega) ?_
        rw [Nat.add_assoc, Nat.add_comm 1]
        exact shown (index + 1) other found
      unfold tickSms
      split
      · obtain ⟨allDone, after, l2Cache', globalMemory', ran, l1After,
            l2After⟩ :=
          inductionHypothesis (continues (.refl _ state)) global safe
            l1InUse.2 l2InUse
        rw [ran]
        exact
          ⟨_, _, _, _, rfl, List.forall_mem_cons.mpr ⟨l1InUse.1, l1After⟩,
            l2After⟩
      · have issuable
            (index : Nat)
            (warp : Warp)
            (selected : sm.issued? = some (index, warp))
            (inst : Instruction)
            (fetched : kernel.fetch? warp.warpPc = some inst) :
            warp.paths.Safe globalMemory.size inst := by
          rw [global]
          exact issued_safe shownHere safe selected fetched
        obtain ⟨ticked, memory', ticks, inUse⟩ :=
          @SM.tick_returns σ kernel _ sm
            { sharedMemory := sm.sharedMemory
              l1Cache := sm.l1Cache
              l2Cache := l2Cache
              globalMemory := globalMemory
              config := memoryConfig }
            ⟨l1InUse.1, l2InUse⟩ issuable
        obtain ⟨middle, moves, globalMiddle, _⟩ :=
          @Shows.tick σ kernel grid req numSms smId state sm _ _ shownHere
            _ memory' ticked rfl global ticks memory'.l1Cache
        obtain ⟨allDone, after, l2Cache', globalMemory', ran, l1After,
            l2After⟩ :=
          inductionHypothesis (continues moves.same) globalMiddle.symm
            (fun final later => safe final (moves.steps.trans later))
            l1InUse.2 inUse.l2Cache
        have now :
            tickSm kernel memoryConfig sm l2Cache globalMemory =
              .ok
                ({ ticked with
                    sharedMemory := memory'.sharedMemory
                    l1Cache := memory'.l1Cache },
                  memory'.l2Cache, memory'.globalMemory) :=
          except_bind_ok.mpr ⟨_, ticks, rfl⟩
        let tickedSm : SM σ :=
          { ticked with
            sharedMemory := memory'.sharedMemory
            l1Cache := memory'.l1Cache }
        refine
          ⟨false, tickedSm :: after, l2Cache', globalMemory', ?_,
            List.forall_mem_cons.mpr ⟨inUse.l1Cache, l1After⟩, l2After⟩
        exact
          except_bind_ok.mpr ⟨_, now, except_bind_ok.mpr ⟨_, ran, rfl⟩⟩

/-! ## Runs -/

/-- Caches as they were built and as lookups leave them. -/
structure CachesInUse (gpu : GPU σ) : Prop where
  l1Caches : ∀ sm ∈ gpu.sms, sm.l1Cache.InUse
  l2Cache : gpu.l2Cache.InUse

/-- The caches of a built GPU are in use. -/
theorem Fresh.cachesInUse
    {gpu : GPU σ}
    (fresh : gpu.Fresh) :
    gpu.CachesInUse := by
  obtain ⟨_, _, _, _, _, l2Built⟩ := fresh.l2Cache
  refine ⟨fun sm member => ?_, .built l2Built⟩
  obtain ⟨_, _, _, _, _, l1Built⟩ := fresh.l1Caches sm member
  exact .built l1Built

/-- Loading blocks uses no caches. -/
theorem CachesInUse.of_sameHierarchy
    {gpu after : GPU σ}
    (inUse : gpu.CachesInUse)
    (same : SameHierarchy gpu after) :
    after.CachesInUse := by
  refine ⟨fun sm member => ?_, ?_⟩
  · obtain ⟨position, found⟩ := List.mem_iff_getElem?.mp member
    obtain ⟨before, foundBefore, sameCache⟩ :=
      Pointwise.origin same.sms found
    rw [sameCache.l1Cache]
    exact inUse.l1Caches before (List.mem_of_getElem? foundBefore)
  · rw [same.l2Cache]
    exact inUse.l2Cache

/-- An iteration returns from where every step leads to safe states. -/
theorem iterate_returns
    [WarpScheduler σ]
    [LawfulWarpScheduler σ]
    (wellFormed : grid.WellFormed)
    (fits : ∀ block ∈ grid.blocks, SM.fitsEmpty block config req = true)
    {events : List DispatchEvent}
    {gpu : GPU σ}
    (tracked : gpu.Tracked grid config req numSms events)
    (shown : gpu.ShownBy grid req state)
    (safe :
      ∀ final,
        Steps kernel grid numSms state final → final.Safe kernel)
    (inUse : gpu.CachesInUse) :
    ∃ allDone after,
      gpu.iterate kernel = .ok (allDone, after) ∧ after.CachesInUse := by
  cases refills : gpu.refill with
  | error error =>
      obtain ⟨block, rest, order, noRoom⟩ :=
        refill_error wellFormed tracked refills
      have member : block ∈ grid.blocks := by
        rw [← order]
        exact List.mem_append_right _ List.mem_cons_self
      rw [fits block member] at noRoom
      cases noRoom
  | ok refilled =>
      rw [← tracked.sameReq] at shown
      obtain ⟨middle, steps, shownMiddle⟩ :=
        @loadBlocks_steps σ kernel grid state wellFormed _ _ _ _
          prepares_release shown.sms shown.pending tracked.pendingBlocks
          shown.global refills
      rw [tracked.smCount] at steps
      have inUseNow :=
        inUse.of_sameHierarchy
          (loadBlocks_sameHierarchy SM.SameMemory.releaseCompletedBlocks
            refills)
      obtain ⟨allDone, after, l2Cache', globalMemory', ran, l1After,
          l2After⟩ :=
        @tickSms_returns σ kernel grid gpu.req numSms 0 middle _ _
          refilled.config.memoryAccessConfig refilled.sms refilled.l2Cache
          refilled.globalMemory
          (fun index sm found => by
            rw [Nat.zero_add]
            exact shownMiddle.sms index sm found)
          shownMiddle.global.symm
          (fun final later => safe final (steps.trans later))
          inUseNow.l1Caches inUseNow.l2Cache
      let after' : GPU σ :=
        { refilled with
          sms := after, l2Cache := l2Cache', globalMemory := globalMemory' }
      have iterates :
          gpu.iterate kernel = .ok (allDone, after') :=
        except_bind_ok.mpr
          ⟨refilled, refills, except_bind_ok.mpr ⟨_, ran, rfl⟩⟩
      exact ⟨allDone, after', iterates, l1After, l2After⟩

/-- A run never throws from where every step leads to safe states. -/
theorem run_throws_nothing
    [WarpScheduler σ]
    [LawfulWarpScheduler σ]
    (wellFormed : grid.WellFormed)
    (fits : ∀ block ∈ grid.blocks, SM.fitsEmpty block config req = true)
    {events : List DispatchEvent}
    {fuel : Nat}
    {gpu : GPU σ}
    (tracked : gpu.Tracked grid config req numSms events)
    (shown : gpu.ShownBy grid req state)
    (safe :
      ∀ final,
        Steps kernel grid numSms state final → final.Safe kernel)
    (inUse : gpu.CachesInUse)
    {error : SimError} :
    gpu.runToCompletion kernel fuel ≠ some (.error error) := by
  induction fuel generalizing gpu state events with
  | zero => simp [runToCompletion]
  | succ fuel inductionHypothesis =>
      obtain ⟨allDone, after, iterates, inUseAfter⟩ :=
        iterate_returns wellFormed fits tracked shown safe inUse
      obtain ⟨trackedAfter, _⟩ := iterate_tracked wellFormed tracked iterates
      have shownNow := shown
      rw [← tracked.sameReq] at shownNow
      obtain ⟨next, steps, shownNext⟩ :=
        iterate_steps wellFormed shownNow tracked.pendingBlocks iterates
      rw [tracked.sameReq] at shownNext
      rw [tracked.smCount] at steps
      rw [runToCompletion, iterates]
      cases allDone with
      | true => simp
      | false =>
          exact
            inductionHypothesis trackedAfter shownNext
              (fun final later => safe final (steps.trans later))
              inUseAfter

/-- A grid whose blocks all have room is launched. -/
theorem launch_returns
    (wellFormed : grid.WellFormed)
    (fits : ∀ block ∈ grid.blocks, SM.fitsEmpty block config req = true)
    (gpu : GPU σ) :
    ∃ launched, gpu.launchKernel grid config req = .ok launched := by
  cases launches : gpu.launchKernel grid config req with
  | ok launched => exact ⟨launched, rfl⟩
  | error thrown =>
      obtain ⟨block, rest, order, noRoom⟩ := launch_error wellFormed launches
      have member : block ∈ grid.blocks := by
        rw [← order]
        exact List.mem_append_right _ List.mem_cons_self
      rw [fits block member] at noRoom
      cases noRoom

/-- The run loop after a launch of safe agents throws nothing. -/
theorem launched_throws_nothing
    [WarpScheduler σ]
    [LawfulWarpScheduler σ]
    (wellFormed : grid.WellFormed)
    (unstarted : grid.Unstarted)
    (noBarrier : kernel.NoBarrier)
    {gpu launched : GPU σ}
    (inUse : gpu.CachesInUse)
    (fits : ∀ block ∈ grid.blocks, SM.fitsEmpty block config req = true)
    (safe :
      ∀ here memory,
        Interleaves kernel.agent grid.startOf gpu.globalMemory.data here
          memory →
        ∀ name, (here name).Safe kernel gpu.globalMemory.size)
    (launches : gpu.launchKernel grid config req = .ok launched)
    {fuel : Nat}
    {error : SimError} :
    launched.runToCompletion kernel fuel ≠ some (.error error) := by
  obtain ⟨middle, first, shown⟩ :=
    @launchKernel_steps σ kernel grid config req wellFormed _ _ launches
  have inUseLaunched : launched.CachesInUse :=
    @CachesInUse.of_sameHierarchy σ
      { gpu with
        config := config
        req := req
        pendingBlocks := grid.blocks
        currentBlockIdx := 0 }
      launched ⟨inUse.l1Caches, inUse.l2Cache⟩
      (@loadBlocks_sameHierarchy σ _ _ SM.clearWarps
        (fun _ => ⟨rfl, rfl, rfl⟩) launches)
  refine
    run_throws_nothing wellFormed fits (launch_tracked wellFormed launches)
      shown (fun final later => ?_) inUseLaunched
  obtain ⟨here, memory, interleaved, ⟨stands, _, size⟩ | leaving⟩ :=
    interleaved_of_steps wellFormed unstarted noBarrier (first.trans later)
  · refine stands.safe fun name => ?_
    rw [size]
    exact safe here memory interleaved name
  · obtain ⟨name, performed, access, accesses, member, outside⟩ := leaving
    have isSafe := safe here memory interleaved name
    exact (outside (isSafe.isGlobal accesses member)).elim

/--
A kernel without barriers never throws, on any configuration and under any
policy, when every block has room on an empty multiprocessor and no interleaving
of the warps as agents gets to an instruction that an agent cannot execute.
-/
theorem safe_agents_throw_nothing
    [WarpScheduler σ]
    [LawfulWarpScheduler σ]
    (wellFormed : grid.WellFormed)
    (unstarted : grid.Unstarted)
    (noBarrier : kernel.NoBarrier)
    {gpu : GPU σ}
    (inUse : gpu.CachesInUse)
    (fits : ∀ block ∈ grid.blocks, SM.fitsEmpty block config req = true)
    (safe :
      ∀ here memory,
        Interleaves kernel.agent grid.startOf gpu.globalMemory.data here
          memory →
        ∀ name, (here name).Safe kernel gpu.globalMemory.size)
    (fuel : Nat)
    (error : SimError) :
    gpu.launchAndRun grid config req kernel fuel ≠ some (.error error) := by
  obtain ⟨launched, launches⟩ := launch_returns wellFormed fits gpu
  rw [launchAndRun, launches]
  exact
    launched_throws_nothing wellFormed unstarted noBarrier inUse fits safe
      launches

/-- Warps that race to add to one cell do not leave global memory. -/
theorem safe_agents_throw_nothing_addFive :
    (single narrowConfig).launchAndRun ⟨[.narrow 4 1, .narrow 2 1]⟩
        narrowConfig ⟨32, 0⟩ addFive 20 ≠
      some (.error .globalMemory) := by
  have narrow :
      ∀ name warp,
        Grid.warp? ⟨[.narrow 4 1, .narrow 2 1]⟩ name = some warp →
        warp.threads.length ≤ 32 := by
    intro name warp found
    obtain ⟨block, search, atPosition⟩ := Option.bind_eq_some_iff.mp found
    have short :
        ∀ block ∈ [ThreadBlock.narrow 4 1, .narrow 2 1],
          ∀ warp ∈ block.warps, warp.threads.length ≤ 32 := by
      decide
    exact
      short block (List.mem_of_find?_eq_some search) warp
        (List.mem_of_getElem? atPosition)
  have unstarted : Grid.Unstarted ⟨[.narrow 4 1, .narrow 2 1]⟩ := by
    unfold Grid.Unstarted
    decide
  refine
    safe_agents_throw_nothing (narrow_wellFormed [4, 2] (by decide)) unstarted
      addFive_noBarrier ?_ (by decide)
      (fun here memory interleaved name => ?_) 20 .globalMemory
  · refine ⟨fun sm member => ?_, (MemorySystem.minimal_inUse 1).l2Cache⟩
    rw [List.mem_singleton.mp member]
    exact (MemorySystem.minimal_inUse 1).l1Cache
  · refine
      .of_inside (by decide) (Grid.lanes_of_interleaves narrow interleaved name)
        fun performed accesses access member => ?_
    obtain ⟨_, inst, fetched, isAccess⟩ :=
      PathRun.mem_accesses accesses member
    obtain ⟨⟨_, lane⟩, _, isLane⟩ := List.mem_filterMap.mp isAccess
    have address : access.address = 0 := by
      have isInst : inst ∈ addFive.instructions :=
        Kernel.fetch?_mem fetched
      simp only [addFive, List.mem_cons, List.not_mem_nil, or_false]
        at isInst
      rcases isInst with rfl | rfl
      · cases isLane
      · cases isLane
        change LaneState.address (-1) _ lane = 0
        rw [LaneState.address, if_pos rfl]
        simp [sizeT]
    rw [address]
    exact ⟨rfl, Nat.one_pos⟩

end GPU

end SimSm
