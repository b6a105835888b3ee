import SimSm.Latency
import SimSm.Reconvergence
import SimSm.SingleWarp

namespace SimSm

/-!
# Shadow pcs

Every thread has a pc of its own, which the executor writes for the lanes that
were active before the instruction.  A `SYNC` resumes other lanes than those,
and it writes no pc of theirs; the pop at the end of the kernel, which resumes
paths too, writes the pcs of the lanes that it resumes.
-/

open InstructionExecutor Outcome Reconvergence

namespace ShadowPcs

/-- Every active thread stands at the pc of its warp. -/
def Coherent (warp : Warp) : Prop :=
  ∀ (lane : Nat) (thread : Thread),
    warp.threads[lane]? = some thread →
    warp.activeMask.getLsbD lane = true →
    thread.pc = (warp.warpPc : Int)

/-- The pc at which a `SYNC` resumes the path that it pops. -/
def resumedPc (warp : Warp) (entry : SIMTStackEntry) : Nat :=
  if entry.targetPc = warp.warpPc then
    nextPc warp.warpPc
  else
    entry.targetPc

/--
A `SYNC` that resumes a path inside the kernel executes for the lanes of that
path, or finds them standing at the pc where they resume.
-/
def InStep (kernel : Kernel) (warp : Warp) : Prop :=
  (kernel.fetch? warp.warpPc).map Instruction.opcode = some .sync →
  ∀ entry ∈ warp.simtStack.head?,
    resumedPc warp entry < kernel.size →
    ∀ (lane : Nat) (thread : Thread),
      warp.threads[lane]? = some thread →
      entry.activeMask.getLsbD lane = true →
      warp.activeMask.getLsbD lane = false →
      thread.pc = (resumedPc warp entry : Int)

/-! ## The last step of every instruction -/

section Execution

variable {before after : Warp × MemorySystem}
variable {inst : Instruction}
variable {result : ExecutionResult}

/-- A computation that ends by advancing the lanes active before it. -/
def Advances (before after : Warp × MemorySystem) : Prop :=
  ∃ middle,
    advanceTo before.1.activeMask after.1.warpPc middle = .ok () after

/-- The last two lines of every opcode. -/
theorem advances_last
    {mask : ActiveMask}
    {pc : Nat}
    {middle : Warp × MemorySystem}
    {returned : ExecutionResult}
    (ran :
      (advanceTo mask pc >>= fun _ => (pure result : ExecM ExecutionResult))
          middle =
        .ok returned after) :
    advanceTo mask after.1.warpPc middle = .ok () after := by
  rcases state_bind_ok.mp ran with ⟨_, final, advanced, returns⟩
  rcases state_pure_ok.mp returns with ⟨_, rfl⟩
  rw [(advanceTo_shell advanced).2.1]
  exact advanced

/-- A branch ends by advancing the lanes that execute it. -/
theorem executeBranch_advances
    (ran : executeBranch inst before.1 before = .ok result after) :
    Advances before after := by
  unfold executeBranch at ran
  rcases state_bind_ok.mp ran with ⟨taken, entry, computed, rest⟩
  split at rest
  · exact ⟨entry, advances_last rest⟩
  · split at rest
    · exact ⟨entry, advances_last rest⟩
    · rcases state_bind_ok.mp rest with ⟨_, pushed, modified, rest⟩
      exact ⟨pushed, advances_last rest⟩

/--
A `SYNC` changes no thread before it advances the lanes that execute it, and
it advances them to the pc of the resumed path.
-/
theorem executeSync_advances
    (ran : executeSync before.1 before = .ok result after) :
    ∃ entry middle,
      before.1.simtStack.head? = some entry ∧
        after.1.warpPc = resumedPc before.1 entry ∧
        after.1.activeMask = entry.activeMask ∧
        advanceTo before.1.activeMask after.1.warpPc middle =
          .ok () after ∧
        middle.1.threads = before.1.threads := by
  unfold executeSync Warp.popSimtStack at ran
  cases stack : before.1.simtStack with
  | nil =>
      rw [stack] at ran
      exact (state_throw_not_ok ran).elim
  | cons entry others =>
      rw [stack] at ran
      rcases state_bind_ok.mp ran with ⟨_, resumed, modified, rest⟩
      have advanced := advances_last rest
      have shape := state_modify_ok.mp modified
      subst shape
      rcases state_bind_ok.mp rest with ⟨_, final, moved, returns⟩
      rcases state_pure_ok.mp returns with ⟨_, rfl⟩
      rcases advanceTo_shell moved with ⟨_, pc, mask, _⟩
      exact ⟨entry, _, rfl, pc, mask, advanced, rfl⟩

/-- Every instruction ends by advancing the lanes that execute it. -/
theorem execute_advances
    (ran : execute inst before = .ok result after) :
    Advances before after := by
  cases opcode : inst.opcode with
  | add | sub | mul | mov | cmp =>
      simp only [execute_eq, executeOpcode, opcode, executeThreads] at ran
      rcases state_bind_ok.mp ran with ⟨_, looped, _, rest⟩
      exact ⟨looped, advances_last rest⟩
  | load =>
      simp only [execute_eq, executeOpcode, opcode, executeLoad] at ran
      rcases state_bind_ok.mp ran with ⟨_, _, _, rest⟩
      rcases state_bind_ok.mp rest with ⟨_, loaded, _, rest⟩
      exact ⟨loaded, advances_last rest⟩
  | store | atomicAdd =>
      simp only [execute_eq, executeOpcode, opcode, executeStore] at ran
      rcases state_bind_ok.mp ran with ⟨_, _, _, rest⟩
      rcases state_bind_ok.mp rest with ⟨_, stored, _, rest⟩
      exact ⟨stored, advances_last rest⟩
  | branch =>
      simp only [execute_eq, executeOpcode, opcode] at ran
      exact executeBranch_advances ran
  | ssy =>
      simp only [execute_eq, executeOpcode, opcode, executeSsy] at ran
      rcases state_bind_ok.mp ran with ⟨_, pushed, _, rest⟩
      exact ⟨pushed, advances_last rest⟩
  | sync =>
      simp only [execute_eq, executeOpcode, opcode] at ran
      rcases executeSync_advances ran with ⟨_, middle, _, _, _, advanced, _⟩
      exact ⟨middle, advanced⟩
  | barrier =>
      simp only [execute_eq, executeOpcode, opcode, executeBarrier] at ran
      split at ran
      · exact (state_throw_not_ok ran).elim
      · exact ⟨before, advances_last ran⟩
  | unknown =>
      simp only [execute_eq, executeOpcode, opcode] at ran
      exact (state_throw_not_ok ran).elim

/-- The lanes that advance stand at the new pc, when it fits in an `int`. -/
theorem pc_of_advanceTo
    {mask : ActiveMask}
    {pc lane : Nat}
    {value : Unit}
    {thread : Thread}
    (ran : advanceTo mask pc before = .ok value after)
    (fits : pc < 2 ^ 31)
    (found : after.1.threads[lane]? = some thread)
    (active : mask.getLsbD lane = true) :
    thread.pc = (pc : Int) := by
  rcases advanceTo_ok ran with ⟨threads, update, rfl⟩
  have inside : lane < before.1.threads.length := by
    rw [← update.length]
    exact (List.getElem?_eq_some_iff.mp found).1
  rcases update.updated (List.getElem?_eq_getElem inside)
      (by rwa [Nat.zero_add]) with
    ⟨changed, shadowed, foundChanged⟩
  dsimp only at found
  rw [found, Option.some.injEq] at foundChanged
  simp only [shadowThread, Except.ok.injEq] at shadowed
  rw [foundChanged, ← shadowed]
  exact toInt32_of_lt fits

/-- The lanes that do not advance keep their threads. -/
theorem kept_of_advanceTo
    {mask : ActiveMask}
    {pc lane : Nat}
    {value : Unit}
    (ran : advanceTo mask pc before = .ok value after)
    (inactive : mask.getLsbD lane = false) :
    after.1.threads[lane]? = before.1.threads[lane]? := by
  rcases advanceTo_ok ran with ⟨threads, update, rfl⟩
  exact update.kept (by rwa [Nat.zero_add])

/-- An instruction other than `SYNC` activates no further lane. -/
theorem active_before
    {lane : Nat}
    (ran : execute inst before = .ok result after)
    (notSync : inst.opcode ≠ .sync)
    (active : after.1.activeMask.getLsbD lane = true) :
    before.1.activeMask.getLsbD lane = true := by
  cases (execute_ok ran).control with
  | fallThrough _ _ mask _ | barrier _ _ _ mask _ | branchNone _ _ _ mask _
    | branchAll _ _ _ _ mask _ | ssy _ _ mask _ =>
      rwa [mask] at active
  | diverge _ taken _ _ _ _ => exact ((taken lane).mp active).1
  | syncToken opcode _ _ _ _ _ => exact (notSync opcode).elim
  | syncDeferred opcode _ _ _ _ _ => exact (notSync opcode).elim

end Execution

/-! ## The issued warp -/

section Issue

variable {kernel : Kernel}
variable {warp executed held : Warp}
variable {memory memory' : MemorySystem}
variable {inst : Instruction}
variable {result : ExecutionResult}

/-- Coherence is a matter of the core of a warp. -/
theorem Coherent.of_core
    (coherent : Coherent warp)
    (same : SameCore warp executed) :
    Coherent executed := by
  intro lane thread found active
  rw [same.threads] at found
  rw [same.activeMask] at active
  rw [same.warpPc]
  exact coherent lane thread found active

/-- An instruction other than `SYNC` leaves the warp coherent. -/
theorem coherent_of_execute
    (ran : execute inst (warp, memory) = .ok result (executed, memory'))
    (notSync : inst.opcode ≠ .sync)
    (fits : executed.warpPc < 2 ^ 31) :
    Coherent executed := by
  rcases execute_advances ran with ⟨middle, advanced⟩
  intro lane thread found active
  exact pc_of_advanceTo advanced fits found (active_before ran notSync active)

/-- What a `SYNC` resumes, and the threads that it leaves as they are. -/
theorem sync_resumes
    (ran : execute inst (warp, memory) = .ok result (executed, memory'))
    (opcode : inst.opcode = .sync) :
    ∃ entry,
      warp.simtStack.head? = some entry ∧
        executed.warpPc = resumedPc warp entry ∧
        executed.activeMask = entry.activeMask ∧
        ∀ lane,
          warp.activeMask.getLsbD lane = false →
          executed.threads[lane]? = warp.threads[lane]? := by
  simp only [execute_eq, executeOpcode, opcode] at ran
  have advances := @executeSync_advances (warp, memory) _ _ ran
  rcases advances with ⟨entry, middle, popped, pc, mask, advanced, threads⟩
  refine ⟨entry, popped, pc, mask, fun lane inactive => ?_⟩
  rw [kept_of_advanceTo advanced inactive, threads]

/-- An instruction that stays inside the kernel is coherent when in step. -/
theorem execute_coherent_iff
    (fetched : kernel.fetch? warp.warpPc = some inst)
    (ran : execute inst (warp, memory) = .ok result (executed, memory'))
    (fits : kernel.size < 2 ^ 31)
    (inside : executed.warpPc < kernel.size) :
    Coherent executed ↔ InStep kernel warp := by
  have pcFits : executed.warpPc < 2 ^ 31 := inside.trans fits
  rcases execute_advances ran with ⟨middle, advanced⟩
  by_cases opcode : inst.opcode = .sync
  · rcases sync_resumes ran opcode with ⟨entry, popped, pc, mask, kept⟩
    constructor
    · intro coherent _ other isPopped _ lane thread found resumed inactive
      rw [popped, Option.mem_some_iff] at isPopped
      subst isPopped
      rw [← pc]
      apply coherent lane thread
      · rwa [kept lane inactive]
      · rwa [mask]
    · intro inStep lane thread found active
      cases executes : warp.activeMask.getLsbD lane with
      | true => exact pc_of_advanceTo advanced pcFits found executes
      | false =>
          rw [kept lane executes] at found
          rw [mask] at active
          rw [pc] at inside ⊢
          have isSync :
              (kernel.fetch? warp.warpPc).map Instruction.opcode =
                some .sync := by
            rw [fetched, Option.map_some, opcode]
          exact
            inStep isSync entry popped inside lane thread found active
              executes
  · refine iff_of_true (coherent_of_execute ran opcode pcFits) ?_
    intro isSync
    rw [fetched, Option.map_some, Option.some.injEq] at isSync
    exact (opcode isSync).elim

/-- A `SYNC` that leaves the kernel is in step. -/
theorem inStep_of_outside
    (fetched : kernel.fetch? warp.warpPc = some inst)
    (ran : execute inst (warp, memory) = .ok result (executed, memory'))
    (outside : kernel.size ≤ executed.warpPc) :
    InStep kernel warp := by
  intro isSync other isPopped inside
  rw [fetched, Option.map_some, Option.some.injEq] at isSync
  rcases sync_resumes ran isSync with ⟨entry, popped, pc, _⟩
  rw [popped, Option.mem_some_iff] at isPopped
  subst isPopped
  rw [← pc] at inside
  exact (Nat.not_le.mpr inside outside).elim

/-- The path that is resumed at the end of the kernel is coherent. -/
theorem resumePath_coherent
    {entry : SIMTStackEntry}
    (fits : entry.targetPc < 2 ^ 31) :
    Coherent (SM.resumePath warp entry) := by
  intro lane thread found active
  dsimp only [SM.resumePath] at found active ⊢
  rw [List.getElem?_mapIdx, Option.map_eq_some_iff] at found
  rcases found with ⟨former, _, rfl⟩
  rw [if_pos active]
  exact toInt32_of_lt fits

/--
The step lemma: a warp that executes and goes on inside the kernel is coherent
exactly when the instruction was in step.
-/
theorem settle_coherent_iff
    (fetched : kernel.fetch? warp.warpPc = some inst)
    (ran : execute inst (warp, memory) = .ok result (executed, memory'))
    (same : SameCore executed held)
    (fits : kernel.size < 2 ^ 31) :
    ((SM.settle kernel result held).warpPc < kernel.size →
        Coherent (SM.settle kernel result held)) ↔
      InStep kernel warp := by
  by_cases inside : executed.warpPc < kernel.size
  · have heldInside : held.warpPc < kernel.size := by
      rwa [same.warpPc]
    have core : SameCore executed (SM.settle kernel result held) :=
      same.trans (SM.settle_inside_core heldInside)
    rw [← execute_coherent_iff fetched ran fits inside]
    constructor
    · intro settled
      apply (settled _).of_core core.symm
      rwa [core.warpPc]
    · exact fun coherent _ => coherent.of_core core
  · rw [not_lt] at inside
    have outside : kernel.size ≤ held.warpPc := by
      rwa [same.warpPc]
    refine iff_of_true ?_ (inStep_of_outside fetched ran inside)
    intro resumes
    cases stack : held.simtStack with
    | nil =>
        rw [SM.settle_ends outside stack] at resumes
        exact (Nat.not_le.mpr resumes outside).elim
    | cons entry rest =>
        rw [SM.settle_resumes outside stack] at resumes ⊢
        exact resumePath_coherent (lt_trans resumes fits)

end Issue

/-! ## Runs of ticks -/

section Ticks

variable {σ : Type} [WarpScheduler σ]
variable {kernel : Kernel}

/--
The instruction that a tick executes, if its warp goes on inside the kernel,
leaves every active thread at the pc of the warp.
-/
def ExecutesCoherently (kernel : Kernel) (before after : SM σ) : Prop :=
  ∀ (index : Nat) (warp settled : Warp),
    before.issued? = some (index, warp) →
    warp.warpPc < kernel.size →
    after.warps[index]? = some settled →
    settled.warpPc < kernel.size →
    Coherent settled

/-- The instruction that the next tick executes, if it is a `SYNC`, is in step. -/
def ExecutesInStep (kernel : Kernel) (before : SM σ) : Prop :=
  ∀ (index : Nat) (warp : Warp),
    before.issued? = some (index, warp) →
    InStep kernel warp

/-- A tick executes coherently exactly when it executes in step. -/
theorem executesCoherently_iff
    {before after : SM σ}
    (fits : kernel.size < 2 ^ 31)
    (ticked : Latency.Ticks kernel before after) :
    ExecutesCoherently kernel before after ↔
      ExecutesInStep kernel before := by
  rcases ticked with ⟨memory, memory', ran⟩
  rcases SM.tick_ok ran with ⟨_, _, step⟩
  unfold ExecutesCoherently ExecutesInStep
  generalize after.warps = warps at step ⊢
  cases step with
  | quiet nothing _ =>
      rw [nothing]
      exact iff_of_true nofun nofun
  | issued selected step =>
      rename_i index warp
      have found := SM.issued?_timed selected
      have unique {other : Nat × Warp} :
          before.issued? = some other → other = (index, warp) := by
        rw [selected, Option.some.injEq]
        exact Eq.symm
      by_cases inside : warp.warpPc < kernel.size
      · rcases step.settled found inside with
          ⟨inst, result, executed, held, fetched, executes, same, settled⟩
        have stepIff := settle_coherent_iff fetched executes same fits
        constructor
        · intro coherently position other isIssued
          cases unique isIssued
          exact stepIff.mp (coherently index warp _ selected inside settled)
        · intro inStep position other final isIssued _ isFinal goesOn
          cases unique isIssued
          rw [settled, Option.some.injEq] at isFinal
          subst isFinal
          exact stepIff.mpr (inStep index warp selected) goesOn
      · refine iff_of_true ?_ ?_
        · intro position other final isIssued executes
          cases unique isIssued
          exact (inside executes).elim
        · intro position other isIssued isSync
          cases unique isIssued
          cases fetched : kernel.fetch? warp.warpPc with
          | none =>
              rw [fetched] at isSync
              cases isSync
          | some inst => exact (inside (Kernel.fetch?_lt fetched)).elim

/--
In every run of ticks, every executed instruction leaves the active threads at
the pc of their warp exactly when every executed `SYNC` is in step.
-/
theorem shadowPcs_coherent_iff
    {states : Nat → SM σ}
    {rounds : Nat}
    (fits : kernel.size < 2 ^ 31)
    (ticks :
      ∀ round < rounds,
        Latency.Ticks kernel (states round) (states (round + 1))) :
    (∀ round < rounds,
        ExecutesCoherently kernel (states round) (states (round + 1))) ↔
      ∀ round < rounds, ExecutesInStep kernel (states round) := by
  apply forall_congr'
  intro round
  apply forall_congr'
  intro early
  exact executesCoherently_iff fits (ticks round early)

end Ticks

/-! ## Two lanes in a region -/

/-- A multiprocessor with one warp of two lanes, the first of which skips. -/
def regionStart : SM Scheduler :=
  SM.hosting skippingLanes .greedy

/-- The states of a run on two lanes. -/
def regionStates (kernel : Kernel) (round : Nat) : SM Scheduler :=
  (SM.stepped kernel (.minimal 1))^[round] regionStart

/-- Each state leads to the next while its tick does not throw. -/
theorem regionStates_ticks
    {kernel : Kernel}
    {round : Nat}
    (isOk :
      ((regionStates kernel round).tick kernel (.minimal 1)).isOk = true) :
    Latency.Ticks kernel (regionStates kernel round)
      (regionStates kernel (round + 1)) := by
  rcases SM.tick_stepped isOk with ⟨memory', ran⟩
  refine ⟨.minimal 1, memory', ?_⟩
  rw [ran]
  simp only [regionStates, Function.iterate_succ_apply']

/-- A region that no lane leaves. -/
def wholeRegionKernel : Kernel where
  instructions :=
    [⟨.ssy, -1, -1, -1, 1⟩,
      ⟨.sync, 0, 0, 0, 0⟩,
      ⟨.mov, 2, -1, -1, 7⟩]
  lengthFits := by decide

/-- A region without a branch keeps the shadow pcs in step. -/
theorem shadowPcs_coherent_iff_wholeRegion :
    (∀ round < 2,
        ExecutesCoherently wholeRegionKernel
          (regionStates wholeRegionKernel round)
          (regionStates wholeRegionKernel (round + 1))) ↔
      ∀ round < 2,
        ExecutesInStep wholeRegionKernel
          (regionStates wholeRegionKernel round) := by
  apply shadowPcs_coherent_iff
  · decide
  · intro round early
    rcases round with _ | _ | round
    · exact regionStates_ticks (by decide +kernel)
    · exact regionStates_ticks (by decide +kernel)
    · exact absurd early (by simp)

/-- A region that the first lane skips the inside of. -/
def skippedRegionKernel : Kernel where
  instructions :=
    [⟨.cmp, -1, 0, 1, 0⟩,
      ⟨.ssy, -1, -1, -1, 3⟩,
      ⟨.branch, -1, -1, -1, 2⟩,
      ⟨.mov, 2, -1, -1, 7⟩,
      ⟨.sync, 0, 0, 0, 0⟩,
      ⟨.mov, 2, -1, -1, 7⟩]
  lengthFits := by decide

/-- The pcs of a warp, its active lanes, and the pcs of its threads. -/
def pcs (warp : Warp) : Nat × ActiveMask × List Int :=
  (warp.warpPc, warp.activeMask, warp.threads.map Thread.pc)

/--
The `SYNC` of the first lane resumes the second one at the instruction after
the branch, while its thread still stands at the target of the branch.
-/
theorem sync_leaves_shadowPcs :
    ¬ ∀ (kernel : Kernel) (warp : Warp) (scheduler : Scheduler)
        (states : Nat → SM Scheduler) (rounds : Nat),
        kernel.size < 2 ^ 31 →
        Launched warp →
        (∀ thread ∈ warp.threads, thread.pc = (warp.warpPc : Int)) →
        states 0 = SM.hosting warp scheduler →
        (∀ round < rounds,
          Latency.Ticks kernel (states round) (states (round + 1))) →
        ∀ round < rounds,
          ExecutesCoherently kernel (states round)
            (states (round + 1)) := by
  intro always
  have coherently :=
    always skippedRegionKernel skippingLanes .greedy
      (regionStates skippedRegionKernel) 4 (by decide)
      ⟨by decide, by decide, by decide⟩ (by decide) rfl
      (by
        intro round early
        rcases round with _ | _ | _ | _ | round
        · exact regionStates_ticks (by decide +kernel)
        · exact regionStates_ticks (by decide +kernel)
        · exact regionStates_ticks (by decide +kernel)
        · exact regionStates_ticks (by decide +kernel)
        · exact absurd early (by simp))
      3 (by decide)
  have isIssued :
      ((regionStates skippedRegionKernel 3).issued?.map fun issued =>
          (issued.1, issued.2.warpPc)) =
        some (0, 4) := by
    decide +kernel
  have isSettled :
      ((regionStates skippedRegionKernel 4).warps[0]?.map pcs) =
        some (3, 2, [3, 4]) := by
    decide +kernel
  rcases Option.map_eq_some_iff.mp isIssued with
    ⟨⟨index, warp⟩, issued, shape⟩
  rw [Prod.mk.injEq] at shape
  rcases shape with ⟨rfl, pc⟩
  rcases Option.map_eq_some_iff.mp isSettled with ⟨settled, found, shape⟩
  simp only [pcs, Prod.mk.injEq] at shape
  rcases shape with ⟨settledPc, mask, threads⟩
  have coherent :=
    coherently 0 warp settled issued (by rw [pc]; decide) found
      (by rw [settledPc]; decide)
  have second : (settled.threads.map Thread.pc)[1]? = some 4 := by
    rw [threads]
    rfl
  rw [List.getElem?_map, Option.map_eq_some_iff] at second
  rcases second with ⟨thread, foundThread, isStale⟩
  have stands := coherent 1 thread foundThread (by rw [mask]; decide)
  rw [isStale, settledPc] at stands
  exact absurd stands (by decide)

end ShadowPcs

end SimSm
