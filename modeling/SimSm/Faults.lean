import SimSm.Gpu
import SimSm.Library.Outcome

namespace SimSm

/-!
# What execution cannot throw

Only the dispatcher throws the exception of an impossible block.  Every
operation of the caches, the memories and the executor avoids it, and so does a
tick.
-/

open Outcome

/-- An exception is lifted as it is. -/
theorem liftExcept_avoids
    {σ α : Type}
    {error : SimError}
    {result : Except SimError α}
    (avoids : result ≠ .error error) :
    Avoids error (liftExcept result : EStateM SimError σ α) := by
  intro before after thrown
  cases result with
  | ok value => cases thrown
  | error other =>
      cases thrown
      exact avoids rfl

/-! ## Caches -/

namespace ReplacementPolicy

/-- No policy fails as the dispatcher does. -/
theorem chooseVictim_ne_impossible
    (policy : ReplacementPolicy)
    (lines : List CacheLine) :
    policy.chooseVictim lines ≠ .error .impossibleBlock := by
  cases policy with
  | lru inner =>
      rw [chooseVictim, LRUPolicy.chooseVictim]
      split
      · exact nofun
      · split <;> exact nofun
  | fifo inner =>
      rw [chooseVictim, FIFOPolicy.chooseVictim]
      split
      · exact nofun
      · split <;> exact nofun
  | random inner =>
      rw [chooseVictim, RandomPolicy.chooseVictim]
      split
      · exact nofun
      · split <;> exact nofun

end ReplacementPolicy

/-- A cache access avoids the dispatcher's exception. -/
theorem Cache.lookupAndFill_avoids
    (address : Nat)
    (isWrite : Bool) :
    Avoids .impossibleBlock (Cache.lookupAndFill address isWrite) := by
  intro before after
  unfold Cache.lookupAndFill
  dsimp only
  split
  · exact nofun
  · split
    · exact nofun
    · split
      · rename_i victim error thrown
        intro same
        cases same
        exact
          ReplacementPolicy.chooseVictim_ne_impossible _ _ thrown
      · exact nofun

/-! ## Memories -/

namespace MemorySystem

variable {α β : Type}

theorem onL1_avoids
    {operation : CacheM α}
    {error : SimError}
    (avoids : Avoids error operation) :
    Avoids error (onL1 operation) := by
  intro before after
  unfold onL1
  split
  · exact nofun
  · rename_i thrown cache shape
    intro same
    cases same
    exact avoids _ _ shape

theorem onL2_avoids
    {operation : CacheM α}
    {error : SimError}
    (avoids : Avoids error operation) :
    Avoids error (onL2 operation) := by
  intro before after
  unfold onL2
  split
  · exact nofun
  · rename_i thrown cache shape
    intro same
    cases same
    exact avoids _ _ shape

theorem readLatency_avoids (address : Nat) :
    Avoids .impossibleBlock (readLatency address) := by
  unfold readLatency
  refine .bind .get fun memory => ?_
  refine .bind (onL1_avoids (Cache.lookupAndFill_avoids _ _)) fun l1 => ?_
  split
  · exact .pure _
  · refine
      .bind (onL2_avoids (Cache.lookupAndFill_avoids _ _)) fun l2 => ?_
    dsimp only
    split <;> split <;> exact .pure _

theorem writeLatency_avoids (address : Nat) :
    Avoids .impossibleBlock (writeLatency address) := by
  unfold writeLatency
  refine .bind .get fun memory => ?_
  refine .bind (onL1_avoids (Cache.lookupAndFill_avoids _ _)) fun l1 => ?_
  have charge (latency : Nat) :
      Avoids .impossibleBlock
        (if l1.dirtyEviction = true then
          pure (latency + memory.config.writebackLatency, 1)
        else
          pure (latency, 0) : MemoryM (Nat × Nat)) := by
    split <;> exact .pure _
  dsimp only
  split
  · exact .bind (.pure _) charge
  · refine
      .bind (onL2_avoids (Cache.lookupAndFill_avoids _ _)) fun l2 => ?_
    split <;> exact .bind (.pure _) charge

theorem globalLoad_avoids (address : Nat) :
    Avoids .impossibleBlock (globalLoad address) := by
  refine .bind .get fun memory => liftExcept_avoids ?_
  unfold GlobalMemory.load
  split <;> exact nofun

theorem globalStore_avoids (address : Nat) (value : Word) :
    Avoids .impossibleBlock (globalStore address value) := by
  refine .bind .get fun memory => ?_
  refine .bind (liftExcept_avoids ?_) fun stored => .set _
  unfold GlobalMemory.store
  split <;> exact nofun

theorem sharedLoad_avoids (address : Nat) :
    Avoids .impossibleBlock (sharedLoad address) := by
  refine .bind .get fun memory => ?_
  refine .bind (liftExcept_avoids ?_) fun value => .pure _
  unfold SharedMemory.load
  split <;> exact nofun

theorem sharedStore_avoids (address : Nat) (value : Word) :
    Avoids .impossibleBlock (sharedStore address value) := by
  refine .bind .get fun memory => ?_
  refine .bind (liftExcept_avoids ?_) fun stored => ?_
  · unfold SharedMemory.store
    split <;> exact nofun
  · exact .bind (.set _) fun _ => .pure _

theorem chargeTransactions_avoids
    {latencyOf : Nat → MemoryM (Nat × Nat)}
    {error : SimError}
    (avoids : ∀ address, Avoids error (latencyOf address))
    (lines : List Nat)
    (maxLatency dirtyEvictions : Nat) :
    Avoids error
      (chargeTransactions latencyOf lines maxLatency dirtyEvictions) := by
  induction lines generalizing maxLatency dirtyEvictions with
  | nil => exact .pure _
  | cons line rest inductionHypothesis =>
      exact .bind (avoids line) fun _ => inductionHypothesis _ _

theorem sharedAccesses_avoids
    {access : Nat → β → MemoryM (α × Nat)}
    {error : SimError}
    (avoids : ∀ address argument, Avoids error (access address argument))
    (accesses : List (Nat × β))
    (maxLatency : Nat) :
    Avoids error (sharedAccesses access accesses maxLatency) := by
  induction accesses generalizing maxLatency with
  | nil => exact .pure _
  | cons first rest inductionHypothesis =>
      exact
        .bind (avoids _ _) fun _ =>
          .bind (inductionHypothesis _) fun _ => .pure _

theorem globalAccesses_avoids
    {access : Nat → β → MemoryM α}
    {error : SimError}
    (avoids : ∀ address argument, Avoids error (access address argument))
    (accesses : List (Nat × β)) :
    Avoids error (globalAccesses access accesses) := by
  induction accesses with
  | nil => exact .pure _
  | cons first rest inductionHypothesis =>
      exact
        .bind (avoids _ _) fun _ =>
          .bind inductionHypothesis fun _ => .pure _

/-- A warp access avoids what its latencies and accesses avoid. -/
theorem warpAccess_avoids
    {latencyOf : Nat → MemoryM (Nat × Nat)}
    {onShared : Nat → β → MemoryM (α × Nat)}
    {onGlobal : Nat → β → MemoryM α}
    (latency : ∀ address, Avoids .impossibleBlock (latencyOf address))
    (shared :
      ∀ address argument,
        Avoids .impossibleBlock (onShared address argument))
    (global :
      ∀ address argument,
        Avoids .impossibleBlock (onGlobal address argument))
    (accesses : List (Nat × β)) :
    Avoids .impossibleBlock
      (warpAccess latencyOf onShared onGlobal accesses) := by
  unfold warpAccess
  dsimp only
  split
  · exact .pure _
  · split
    · exact .throw nofun
    · split
      · exact
          .bind .get fun _ =>
            .bind (sharedAccesses_avoids shared _ _) fun _ => .pure _
      · exact
          .bind .get fun _ =>
            .bind (chargeTransactions_avoids latency _ _ _) fun _ =>
              .bind (globalAccesses_avoids global _) fun _ => .pure _

theorem warpLoad_avoids (addresses : List Nat) :
    Avoids .impossibleBlock (warpLoad addresses) :=
  warpAccess_avoids readLatency_avoids
    (fun address _ => sharedLoad_avoids address)
    (fun address _ => globalLoad_avoids address) _

theorem warpStore_avoids (accesses : List (Nat × Word)) :
    Avoids .impossibleBlock (warpStore accesses) := by
  refine
    .bind
      (warpAccess_avoids writeLatency_avoids (fun address value => ?_)
        globalStore_avoids accesses)
      fun _ => .pure _
  exact .bind (sharedStore_avoids address value) fun _ => .pure _

theorem warpAtomicAdd_avoids (accesses : List (Nat × Word)) :
    Avoids .impossibleBlock (warpAtomicAdd accesses) := by
  refine
    .bind
      (warpAccess_avoids writeLatency_avoids (fun address value => ?_)
        (fun address value => ?_) accesses)
      fun _ => .pure _
  · refine
      .bind .get fun memory =>
        .bind (liftExcept_avoids ?_) fun _ =>
          .bind (sharedStore_avoids _ _) fun _ => .pure _
    unfold SharedMemory.load
    split <;> exact nofun
  · exact
      .bind (globalLoad_avoids address) fun _ => globalStore_avoids _ _

end MemorySystem

/-! ## The executor -/

namespace RegisterFile

theorem read_ne_impossible
    (file : RegisterFile 32)
    (operand : Int) :
    file.read operand ≠ .error .impossibleBlock := by
  unfold read
  split <;> exact nofun

theorem write_ne_impossible
    (file : RegisterFile 32)
    (operand : Int)
    (value : Word) :
    file.write operand value ≠ .error .impossibleBlock := by
  unfold write
  split <;> exact nofun

end RegisterFile

theorem ActiveMask.test_ne_impossible
    (mask : ActiveMask)
    (lane : Nat) :
    mask.test lane ≠ .error .impossibleBlock := by
  unfold test
  split <;> exact nofun

namespace InstructionExecutor

variable {α : Type}

theorem onMemory_avoids
    {operation : MemoryM α}
    {error : SimError}
    (avoids : Avoids error operation) :
    Avoids error (onMemory operation) := by
  intro before after
  unfold onMemory
  split
  · exact nofun
  · rename_i thrown memory shape
    intro same
    cases same
    exact avoids _ _ shape

theorem mapActive_ne_impossible
    {body : Thread → Except SimError Thread}
    (avoids : ∀ thread, body thread ≠ .error .impossibleBlock)
    (activeMask : ActiveMask)
    (lane : Nat)
    (threads : List Thread) :
    (mapActive activeMask body lane threads).2 ≠
      .error .impossibleBlock := by
  induction threads generalizing lane with
  | nil => exact nofun
  | cons thread rest inductionHypothesis =>
      have noTest := activeMask.test_ne_impossible lane
      have noBody := avoids thread
      unfold mapActive
      split
      · rename_i error shape
        rw [shape] at noTest
        intro same
        cases same
        exact noTest rfl
      · exact inductionHypothesis _
      · split
        · rename_i error shape
          rw [shape] at noBody
          intro same
          cases same
          exact noBody rfl
        · exact inductionHypothesis _

theorem forActiveThreads_avoids
    {body : Thread → Except SimError Thread}
    (avoids : ∀ thread, body thread ≠ .error .impossibleBlock)
    (activeMask : ActiveMask) :
    Avoids .impossibleBlock (forActiveThreads activeMask body) := by
  intro before after
  have noError :=
    mapActive_ne_impossible avoids activeMask 0 before.1.threads
  unfold forActiveThreads
  dsimp only
  split
  · exact nofun
  · rename_i error shape
    rw [shape] at noError
    intro same
    cases same
    exact noError rfl

theorem gatherActive_ne_impossible
    {body : Thread → Except SimError α}
    (avoids : ∀ thread, body thread ≠ .error .impossibleBlock)
    (activeMask : ActiveMask)
    (lane : Nat)
    (threads : List Thread) :
    gatherActive activeMask body lane threads ≠
      .error .impossibleBlock := by
  induction threads generalizing lane with
  | nil => exact nofun
  | cons thread rest inductionHypothesis =>
      unfold gatherActive
      refine
        except_bind_ne (activeMask.test_ne_impossible lane) fun active => ?_
      split
      · refine except_bind_ne (avoids thread) fun value => ?_
        exact except_bind_ne (inductionHypothesis _) fun values => nofun
      · exact inductionHypothesis _

theorem writeLanes_ne_impossible
    (dst : Int)
    (values : List (Nat × Word))
    (threads : List Thread) :
    (writeLanes dst values threads).2 ≠ .error .impossibleBlock := by
  induction values generalizing threads with
  | nil => exact nofun
  | cons value rest inductionHypothesis =>
      obtain ⟨lane, word⟩ := value
      unfold writeLanes
      split
      · exact inductionHypothesis _
      · rename_i thread found
        have noWrite := thread.registers.write_ne_impossible dst word
        split
        · rename_i error shape
          rw [shape] at noWrite
          intro same
          cases same
          exact noWrite rfl
        · exact inductionHypothesis _

theorem writeBack_avoids
    (dst : Int)
    (values : List (Nat × Word)) :
    Avoids .impossibleBlock (writeBack dst values) := by
  intro before after
  have noError := writeLanes_ne_impossible dst values before.1.threads
  unfold writeBack
  dsimp only
  split
  · exact nofun
  · rename_i error shape
    rw [shape] at noError
    intro same
    cases same
    exact noError rfl

theorem takenMask_ne_impossible
    (activeMask taken : ActiveMask)
    (lane : Nat)
    (threads : List Thread) :
    takenMask activeMask lane threads taken ≠
      .error .impossibleBlock := by
  induction threads generalizing lane taken with
  | nil => exact nofun
  | cons thread rest inductionHypothesis =>
      unfold takenMask
      exact
        except_bind_ne (activeMask.test_ne_impossible lane) fun _ =>
          inductionHypothesis _ _

theorem advanceTo_avoids
    (activeMask : ActiveMask)
    (pc : Nat) :
    Avoids .impossibleBlock (advanceTo activeMask pc) :=
  .bind (.modify _) fun _ =>
    @forActiveThreads_avoids (shadowThread pc) (fun _ => nofun) _

theorem executeThreads_avoids
    {body : Thread → Except SimError Thread}
    (avoids : ∀ thread, body thread ≠ .error .impossibleBlock)
    (warp : Warp) :
    Avoids .impossibleBlock (executeThreads warp body) :=
  .bind (forActiveThreads_avoids avoids _) fun _ =>
    .bind (advanceTo_avoids _ _) fun _ => .pure _

section Threads

variable (inst : Instruction)
variable (thread : Thread)

theorem arithmeticThread_ne_impossible
    (operation : Word → Word → Word) :
    arithmeticThread operation inst thread ≠ .error .impossibleBlock :=
  except_bind_ne (thread.registers.read_ne_impossible _) fun _ =>
    except_bind_ne (thread.registers.read_ne_impossible _) fun _ =>
      except_bind_ne (thread.registers.write_ne_impossible _ _)
        fun _ => nofun

theorem movThread_ne_impossible :
    movThread inst thread ≠ .error .impossibleBlock := by
  unfold movThread
  split
  · exact
      except_bind_ne (thread.registers.write_ne_impossible _ _)
        fun _ => nofun
  · exact
      except_bind_ne (thread.registers.read_ne_impossible _) fun _ =>
        except_bind_ne (thread.registers.write_ne_impossible _ _)
          fun _ => nofun

theorem cmpThread_ne_impossible :
    cmpThread inst thread ≠ .error .impossibleBlock :=
  except_bind_ne (thread.registers.read_ne_impossible _) fun _ =>
    except_bind_ne (thread.registers.read_ne_impossible _) fun _ => nofun

theorem effectiveAddress_ne_impossible
    (src : Int) :
    effectiveAddress src inst thread ≠ .error .impossibleBlock := by
  unfold effectiveAddress
  split
  · exact nofun
  · exact
      except_bind_ne (thread.registers.read_ne_impossible _) fun _ => nofun

theorem storeOperand_ne_impossible :
    storeOperand inst thread ≠ .error .impossibleBlock :=
  except_bind_ne (effectiveAddress_ne_impossible inst thread _) fun _ =>
    except_bind_ne (thread.registers.read_ne_impossible _) fun _ => nofun

end Threads

theorem executeLoad_avoids
    (inst : Instruction)
    (warp : Warp) :
    Avoids .impossibleBlock (executeLoad inst warp) := by
  unfold executeLoad
  refine
    .bind
      (liftExcept_avoids
        (gatherActive_ne_impossible
          (fun thread => effectiveAddress_ne_impossible inst thread _) _ _
          _))
      fun lanes => ?_
  refine
    .bind ?_ fun _ => .bind (advanceTo_avoids _ _) fun _ => .pure _
  cases lanes with
  | nil => exact .pure _
  | cons first rest =>
      exact
        .bind (onMemory_avoids (MemorySystem.warpLoad_avoids _)) fun _ =>
          .bind (writeBack_avoids _ _) fun _ => .pure _

theorem executeStore_avoids
    {operation : List (Nat × Word) → MemoryM WarpMemoryResult}
    (avoids : ∀ accesses, Avoids .impossibleBlock (operation accesses))
    (inst : Instruction)
    (warp : Warp) :
    Avoids .impossibleBlock (executeStore operation inst warp) := by
  unfold executeStore
  refine
    .bind
      (liftExcept_avoids
        (gatherActive_ne_impossible
          (storeOperand_ne_impossible inst) _ _ _))
      fun lanes => ?_
  refine
    .bind ?_ fun _ => .bind (advanceTo_avoids _ _) fun _ => .pure _
  generalize lanes.map Prod.snd = accesses
  cases accesses with
  | nil => exact .pure _
  | cons first rest =>
      exact .bind (onMemory_avoids (avoids _)) fun _ => .pure _

theorem executeBranch_avoids
    (inst : Instruction)
    (warp : Warp) :
    Avoids .impossibleBlock (executeBranch inst warp) := by
  unfold executeBranch
  refine
    .bind (liftExcept_avoids (takenMask_ne_impossible _ _ _ _))
      fun taken => ?_
  split
  · exact .bind (advanceTo_avoids _ _) fun _ => .pure _
  · split
    · exact .bind (advanceTo_avoids _ _) fun _ => .pure _
    · exact
        .bind (.modify _) fun _ =>
          .bind (advanceTo_avoids _ _) fun _ => .pure _

theorem executeSync_avoids (warp : Warp) :
    Avoids .impossibleBlock (executeSync warp) := by
  unfold executeSync
  split
  · exact .throw nofun
  · exact
      .bind (.modify _) fun _ =>
        .bind (advanceTo_avoids _ _) fun _ => .pure _

/-- The opcode switch avoids the dispatcher's exception. -/
theorem executeOpcode_avoids
    (inst : Instruction)
    (warp : Warp) :
    Avoids .impossibleBlock (executeOpcode inst warp) := by
  unfold executeOpcode
  cases inst.opcode with
  | add =>
      exact
        executeThreads_avoids
          (fun thread => arithmeticThread_ne_impossible inst thread _) warp
  | sub =>
      exact
        executeThreads_avoids
          (fun thread => arithmeticThread_ne_impossible inst thread _) warp
  | mul =>
      exact
        executeThreads_avoids
          (fun thread => arithmeticThread_ne_impossible inst thread _) warp
  | mov => exact executeThreads_avoids (movThread_ne_impossible inst) warp
  | cmp => exact executeThreads_avoids (cmpThread_ne_impossible inst) warp
  | load => exact executeLoad_avoids inst warp
  | store =>
      exact executeStore_avoids MemorySystem.warpStore_avoids inst warp
  | atomicAdd =>
      exact executeStore_avoids MemorySystem.warpAtomicAdd_avoids inst warp
  | branch => exact executeBranch_avoids inst warp
  | ssy =>
      exact
        .bind (.modify _) fun _ =>
          .bind (advanceTo_avoids _ _) fun _ => .pure _
  | sync => exact executeSync_avoids warp
  | barrier =>
      change Avoids _ (executeBarrier warp)
      unfold executeBarrier
      split
      · exact .throw nofun
      · exact .bind (advanceTo_avoids _ _) fun _ => .pure _
  | unknown => exact .throw nofun

end InstructionExecutor

/-! ## The tick -/

namespace SM

variable {σ : Type}

theorem handleBarrierArrival_ne_impossible
    (sm : SM σ)
    (index : Nat) :
    sm.handleBarrierArrival index ≠ .error .impossibleBlock := by
  unfold handleBarrierArrival
  split
  · exact nofun
  · dsimp only
    split
    · split <;> exact nofun
    · exact nofun

theorem issue_ne_impossible
    (sm : SM σ)
    (index : Nat)
    (warp : Warp)
    (kernel : Kernel)
    (memory : MemorySystem) :
    sm.issue index warp kernel memory ≠ .error .impossibleBlock := by
  unfold issue
  split
  · exact nofun
  · rename_i inst fetched
    split
    · rename_i error state shape
      intro same
      cases same
      exact
        InstructionExecutor.executeOpcode_avoids inst warp
          (warp, memory) state shape
    · dsimp only
      split
      · exact
          except_bind_ne (handleBarrierArrival_ne_impossible _ _)
            fun _ => nofun
      · exact nofun

/-- A tick avoids the dispatcher's exception. -/
theorem tick_ne_impossible
    [WarpScheduler σ]
    (sm : SM σ)
    (kernel : Kernel)
    (memory : MemorySystem) :
    sm.tick kernel memory ≠ .error .impossibleBlock := by
  unfold tick
  split
  · exact nofun
  · dsimp only
    split
    · exact nofun
    · split
      · exact nofun
      · exact issue_ne_impossible _ _ _ _ _

end SM

/-- So does the tick phase of the run loop. -/
theorem GPU.tickSms_ne_impossible
    {σ : Type}
    [WarpScheduler σ]
    (kernel : Kernel)
    (config : MemoryAccessConfig)
    (sms : List (SM σ))
    (l2Cache : Cache)
    (globalMemory : GlobalMemory) :
    GPU.tickSms kernel config sms l2Cache globalMemory ≠
      .error .impossibleBlock := by
  induction sms generalizing l2Cache globalMemory with
  | nil => exact nofun
  | cons sm rest inductionHypothesis =>
      unfold GPU.tickSms
      split
      · exact except_bind_ne (inductionHypothesis _ _) fun _ => nofun
      · refine except_bind_ne ?_ fun _ => ?_
        · exact except_bind_ne (sm.tick_ne_impossible _ _) fun _ => nofun
        · exact except_bind_ne (inductionHypothesis _ _) fun _ => nofun

end SimSm
