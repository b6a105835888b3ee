import SimSm.MemoryPaths
import SimSm.WarpMemory

namespace SimSm

/-!
# Instructions that do not throw

An instruction executes when its registers exist, when a `SYNC` finds a waiting
path, and when the addresses of the active lanes are in one space and in bounds.
Nothing else is needed: the caches can always serve.
-/

open Interleaving Outcome

/-- An address operand: no register, or one of the thirty-two. -/
def AddressOperand (operand : Int) : Prop :=
  operand = -1 ∨ RegisterOperand operand

instance (operand : Int) : Decidable (AddressOperand operand) :=
  inferInstanceAs (Decidable (_ ∨ _))

/-- An instruction other than a barrier whose registers exist. -/
def Instruction.WellFormed (inst : Instruction) : Prop :=
  match inst.opcode with
  | .load => RegisterOperand inst.dst ∧ AddressOperand inst.src1
  | .store | .atomicAdd =>
      RegisterOperand inst.src1 ∧ AddressOperand inst.src2
  | _ => inst.Regular

/-- What an instruction needs, opcode by opcode. -/
theorem Instruction.wellFormed_iff
    (inst : Instruction) :
    ((inst.opcode = .load →
          RegisterOperand inst.dst ∧ AddressOperand inst.src1) ∧
        (inst.opcode = .store ∨ inst.opcode = .atomicAdd →
          RegisterOperand inst.src1 ∧ AddressOperand inst.src2) ∧
        (inst.opcode ≠ .load →
          inst.opcode ≠ .store →
          inst.opcode ≠ .atomicAdd →
          inst.Regular)) ↔
      inst.WellFormed := by
  unfold Instruction.WellFormed
  cases opcode : inst.opcode <;> simp

instance Instruction.decidableWellFormed
    (inst : Instruction) :
    Decidable inst.WellFormed :=
  decidable_of_iff _ inst.wellFormed_iff

namespace InstructionExecutor

/-- Gathering succeeds when every thread can be read. -/
theorem gatherActive_succeeds
    {α : Type}
    {mask : ActiveMask}
    {body : Thread → Except SimError α}
    {start : Nat}
    {threads : List Thread}
    (lanes : start + threads.length ≤ 32)
    (succeeds : ∀ thread, ∃ value, body thread = .ok value) :
    ∃ values, gatherActive mask body start threads = .ok values := by
  induction threads generalizing start with
  | nil => exact ⟨[], rfl⟩
  | cons thread rest inductionHypothesis =>
      rw [List.length_cons] at lanes
      have tested := @ActiveMask.test_of_lt mask start (by omega)
      obtain ⟨values, gathered⟩ :=
        @inductionHypothesis (start + 1) (by omega)
      obtain ⟨value, read⟩ := succeeds thread
      unfold gatherActive
      cases active : mask.getLsbD start with
      | false =>
          rw [active] at tested
          exact ⟨values, except_bind_ok.mpr ⟨_, tested, gathered⟩⟩
      | true =>
          rw [active] at tested
          refine ⟨(start, value) :: values, ?_⟩
          refine except_bind_ok.mpr ⟨_, tested, ?_⟩
          refine except_bind_ok.mpr ⟨_, read, ?_⟩
          exact except_bind_ok.mpr ⟨_, gathered, rfl⟩

/-- The address of a thread can be computed when its register exists. -/
theorem effectiveAddress_succeeds
    {operand : Int}
    (isOperand : AddressOperand operand)
    (inst : Instruction)
    (thread : Thread) :
    ∃ address, effectiveAddress operand inst thread = .ok address := by
  unfold effectiveAddress
  by_cases immediate : operand = -1
  · exact ⟨_, if_pos immediate⟩
  · rw [if_neg immediate]
    have read :=
      @RegisterFile.read_of_valid thread operand
        (isOperand.resolve_left immediate)
    exact ⟨_, except_bind_ok.mpr ⟨_, read, rfl⟩⟩

/-- So can address and value of a store. -/
theorem storeOperand_succeeds
    {inst : Instruction}
    (isRegister : RegisterOperand inst.src1)
    (isOperand : AddressOperand inst.src2)
    (thread : Thread) :
    ∃ operand, storeOperand inst thread = .ok operand := by
  obtain ⟨address, computed⟩ :=
    effectiveAddress_succeeds isOperand inst thread
  have read := @RegisterFile.read_of_valid thread _ isRegister
  have found :
      storeOperand inst thread =
        .ok (address, thread.lane.read inst.src1) :=
    except_bind_ok.mpr
      ⟨_, computed, except_bind_ok.mpr ⟨_, read, rfl⟩⟩
  exact ⟨_, found⟩

/-- Loaded values can be written back to a register that exists. -/
theorem writeBack_succeeds
    {dst : Int}
    (isRegister : RegisterOperand dst)
    (values : List (Nat × Word))
    (warp : Warp)
    (memory : MemorySystem) :
    ∃ threads,
      writeBack dst values (warp, memory) =
        .ok () ({ warp with threads := threads }, memory) := by
  have written :
      ∀ threads,
        ∃ after, writeLanes dst values threads = (after, .ok ()) := by
    induction values with
    | nil => exact fun threads => ⟨threads, rfl⟩
    | cons entry rest inductionHypothesis =>
        intro threads
        obtain ⟨lane, value⟩ := entry
        unfold writeLanes
        cases threads[lane]? with
        | none => exact inductionHypothesis threads
        | some thread =>
            dsimp only
            rw [RegisterFile.write_of_valid isRegister]
            exact inductionHypothesis _
  obtain ⟨threads, wrote⟩ := written warp.threads
  refine ⟨threads, ?_⟩
  unfold writeBack
  rw [wrote]

/-- A memory operation that returns returns to the executor. -/
theorem onMemory_of_ok
    {α : Type}
    {operation : MemoryM α}
    {warp : Warp}
    {memory memory' : MemorySystem}
    {value : α}
    (ran : operation memory = .ok value memory') :
    onMemory operation (warp, memory) = .ok value (warp, memory') := by
  unfold onMemory
  rw [ran]

section Returns

variable {inst : Instruction}
variable {warp : Warp}
variable {memory : MemorySystem}

/-- An instruction on an intact system returns and leaves it intact. -/
def ReturnsInUse
    (computation : ExecM ExecutionResult)
    (warp : Warp)
    (memory : MemorySystem) : Prop :=
  ∃ result executed memory',
    computation (warp, memory) = .ok result (executed, memory') ∧
      memory'.InUse

/-- After its access an instruction only moves on. -/
theorem advance_returns
    {access : ExecM ExecutionResult}
    {result : ExecutionResult}
    {executed : Warp}
    {memory' : MemorySystem}
    (performed : access (warp, memory) = .ok result (executed, memory'))
    (inUse : memory'.InUse)
    (lanes : executed.threads.length ≤ 32)
    (mask : ActiveMask)
    (pc : Nat) :
    ReturnsInUse
      (do
        let result ← access
        advanceTo mask pc
        pure result)
      warp memory := by
  obtain ⟨after, advanced, _⟩ := advanceTo_succeeds lanes mask pc memory'
  refine ⟨result, after, memory', ?_, inUse⟩
  refine state_bind_ok.mpr ⟨_, _, performed, ?_⟩
  exact state_bind_ok.mpr ⟨_, _, advanced, rfl⟩

/-- A load returns when its registers exist and its addresses are in bounds. -/
theorem executeLoad_returns
    (opcode : inst.opcode = .load)
    (isRegister : RegisterOperand inst.dst)
    (isOperand : AddressOperand inst.src1)
    (lanes : warp.threads.length ≤ 32)
    (inUse : memory.InUse)
    (addressable :
      MemorySystem.Addressable memory
        ((warp.paths.accesses inst).map Access.address)) :
    ReturnsInUse (executeLoad inst warp) warp memory := by
  obtain ⟨entries, gathered⟩ :=
    @gatherActive_succeeds _ warp.activeMask
      (effectiveAddress inst.src1 inst) 0 warp.threads (by omega)
      (effectiveAddress_succeeds isOperand inst)
  have shape := gatherActive_lanes effectiveAddress_ok gathered
  have addresses :
      (warp.paths.accesses inst).map Access.address =
        entries.map Prod.snd := by
    rw [shape, List.map_map, PathState.accesses, List.map_filterMap,
      ← List.filterMap_eq_map]
    congr 1
    funext active
    simp only [LaneState.access?, opcode]
    rfl
  rw [addresses] at addressable
  have loaded :
      ∃ result executed memory',
        loadLanes inst entries (warp, memory) =
            .ok result (executed, memory') ∧
          memory'.InUse := by
    cases entries with
    | nil => exact ⟨_, _, _, rfl, inUse⟩
    | cons first rest =>
        obtain ⟨values, memory', ran, inUseAfter, _⟩ :=
          MemorySystem.warpLoad_returns inUse addressable
        obtain ⟨threads, wrote⟩ :=
          writeBack_succeeds isRegister
            (((first :: rest).map Prod.fst).zip values.1) warp memory'
        obtain ⟨result, performed⟩ :
            ∃ result,
              loadLanes inst (first :: rest) (warp, memory) =
                .ok result ({ warp with threads := threads }, memory') :=
          ⟨_, state_bind_ok.mpr
            ⟨_, _, onMemory_of_ok ran, state_bind_ok.mpr ⟨_, _, wrote, rfl⟩⟩⟩
        exact ⟨_, _, _, performed, inUseAfter⟩
  obtain ⟨result, executed, memory', performed, inUseAfter⟩ := loaded
  have sameLength := congrArg List.length (loadLanes_ok performed).2.1
  rw [List.length_map, List.length_map] at sameLength
  obtain ⟨_, _, _, ran, inUseAtEnd⟩ :=
    advance_returns performed inUseAfter (sameLength.trans_le lanes)
      warp.activeMask (nextPc warp.warpPc)
  have lifted :
      (liftExcept (.ok entries) : ExecM _) (warp, memory) =
        .ok entries (warp, memory) :=
    rfl
  rw [← gathered] at lifted
  exact
    ⟨_, _, _, state_bind_ok.mpr ⟨entries, _, lifted, ran⟩, inUseAtEnd⟩

/-- So does a store or an addition that returns on addresses in bounds. -/
theorem executeStore_returns
    {operation : List (Nat × Word) → MemoryM WarpMemoryResult}
    (returns :
      ∀ accesses,
        MemorySystem.Addressable memory (accesses.map Prod.fst) →
        ∃ stored after,
          operation accesses memory = .ok stored after ∧ after.InUse)
    (isWrite : inst.opcode = .store ∨ inst.opcode = .atomicAdd)
    (isRegister : RegisterOperand inst.src1)
    (isOperand : AddressOperand inst.src2)
    (lanes : warp.threads.length ≤ 32)
    (inUse : memory.InUse)
    (addressable :
      MemorySystem.Addressable memory
        ((warp.paths.accesses inst).map Access.address)) :
    ReturnsInUse (executeStore operation inst warp) warp memory := by
  obtain ⟨entries, gathered⟩ :=
    @gatherActive_succeeds _ warp.activeMask (storeOperand inst) 0
      warp.threads (by omega) (storeOperand_succeeds isRegister isOperand)
  have shape :=
    @gatherActive_lanes _ _ _
      (fun lane : LaneState =>
        (lane.address inst.src2 inst, lane.read inst.src1))
      storeOperand_ok _ _ _ gathered
  have addresses :
      (warp.paths.accesses inst).map Access.address =
        (entries.map Prod.snd).map Prod.fst := by
    rw [shape, List.map_map, List.map_map, PathState.accesses,
      List.map_filterMap, ← List.filterMap_eq_map]
    congr 1
    funext active
    rcases isWrite with opcode | opcode <;>
      simp only [LaneState.access?, opcode] <;> rfl
  rw [addresses] at addressable
  have stored :
      ∃ result memory',
        storeLanes operation (entries.map Prod.snd) (warp, memory) =
            .ok result (warp, memory') ∧
          memory'.InUse := by
    cases writes : entries.map Prod.snd with
    | nil => exact ⟨_, _, rfl, inUse⟩
    | cons first rest =>
        rw [writes] at addressable
        obtain ⟨timing, memory', ran, inUseAfter⟩ := returns _ addressable
        exact
          ⟨_, _, state_bind_ok.mpr ⟨_, _, onMemory_of_ok ran, rfl⟩,
            inUseAfter⟩
  obtain ⟨result, memory', performed, inUseAfter⟩ := stored
  obtain ⟨_, _, _, ran, inUseAtEnd⟩ :=
    advance_returns performed inUseAfter lanes warp.activeMask
      (nextPc warp.warpPc)
  have lifted :
      (liftExcept (.ok entries) : ExecM _) (warp, memory) =
        .ok entries (warp, memory) :=
    rfl
  rw [← gathered] at lifted
  exact
    ⟨_, _, _, state_bind_ok.mpr ⟨entries, _, lifted, ran⟩, inUseAtEnd⟩

/-- An instruction returns when it finds everything that it needs. -/
theorem execute_returns
    (wellFormed : inst.WellFormed)
    (resumes : inst.opcode = .sync → warp.paths.pending ≠ [])
    (lanes : warp.threads.length ≤ 32)
    (inUse : memory.InUse)
    (addressable :
      MemorySystem.Addressable memory
        ((warp.paths.accesses inst).map Access.address)) :
    ReturnsInUse (execute inst) warp memory := by
  have ofRegular (regular : inst.Regular) :
      ReturnsInUse (execute inst) warp memory := by
    obtain ⟨next, executes⟩ :
        ∃ next, warp.paths.execute inst = some next := by
      unfold PathState.execute
      cases opcode : inst.opcode with
      | sync =>
          unfold PathState.sync
          cases pending : warp.paths.pending with
          | nil => exact (resumes opcode pending).elim
          | cons path rest => exact ⟨_, rfl⟩
      | _ => exact ⟨_, rfl⟩
    obtain ⟨result, after, refined⟩ :=
      execute_refines regular lanes executes memory
    exact ⟨result, after, memory, refined.ran, inUse⟩
  unfold Instruction.WellFormed at wellFormed
  have switch :
      ReturnsInUse (executeOpcode inst warp) warp memory →
      ReturnsInUse (execute inst) warp memory := by
    rintro ⟨result, executed, memory', ran, inUseAfter⟩
    exact ⟨result, executed, memory', by rwa [execute_eq], inUseAfter⟩
  cases opcode : inst.opcode with
  | load =>
      simp only [opcode] at wellFormed
      refine switch ?_
      simp only [executeOpcode, opcode]
      exact
        executeLoad_returns opcode wellFormed.1 wellFormed.2 lanes inUse
          addressable
  | store =>
      simp only [opcode] at wellFormed
      refine switch ?_
      simp only [executeOpcode, opcode]
      refine
        executeStore_returns (fun accesses inBounds => ?_) (.inl opcode)
          wellFormed.1 wellFormed.2 lanes inUse addressable
      obtain ⟨stored, after, ran, inUseAfter, _⟩ :=
        MemorySystem.warpStore_returns inUse inBounds
      exact ⟨stored, after, ran, inUseAfter⟩
  | atomicAdd =>
      simp only [opcode] at wellFormed
      refine switch ?_
      simp only [executeOpcode, opcode]
      refine
        executeStore_returns (fun accesses inBounds => ?_) (.inr opcode)
          wellFormed.1 wellFormed.2 lanes inUse addressable
      obtain ⟨added, after, ran, inUseAfter, _⟩ :=
        MemorySystem.warpAtomicAdd_returns inUse inBounds
      exact ⟨added, after, ran, inUseAfter⟩
  | _ =>
      simp only [opcode] at wellFormed
      exact ofRegular wellFormed

end Returns

end InstructionExecutor

end SimSm
