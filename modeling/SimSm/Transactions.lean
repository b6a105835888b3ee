import SimSm.MemoryPaths
import SimSm.Traffic

namespace SimSm

/-!
# The transactions of an instruction

How many transactions an instruction makes depends on the addresses of its
lanes and on the line size of the L1 cache, and on nothing that the caches or
the memories hold.  The line size never changes.
-/

open Outcome Interleaving

/-- A lookup keeps the line size. -/
theorem Cache.lookupAndFill_lineSize
    {address : Nat}
    {isWrite : Bool}
    {before after : Cache}
    {result : CacheAccessResult}
    (ran : lookupAndFill address isWrite before = .ok result after) :
    after.lineSize = before.lineSize := by
  cases isPolicy : before.policies[before.setIndex address]? with
  | none => simp only [lookupAndFill, isPolicy, reduceCtorEq] at ran
  | some policy =>
      cases found :
          findHit? (before.sets.getD (before.setIndex address) [])
            (before.tagOf address) with
      | some way =>
          rw [lookupAndFill_hit isPolicy found] at ran
          obtain ⟨_, rfl⟩ := EStateM.Result.ok.inj ran
          rfl
      | none =>
          cases isVictim :
              policy.chooseVictim
                (before.sets.getD (before.setIndex address) []) with
          | error error =>
              simp only [lookupAndFill, isPolicy, found, isVictim,
                reduceCtorEq] at ran
          | ok pair =>
              rcases pair with ⟨way, chosen⟩
              rw [lookupAndFill_miss isPolicy found isVictim] at ran
              obtain ⟨_, rfl⟩ := EStateM.Result.ok.inj ran
              rfl

namespace MemorySystem

/-- The transactions of a warp access to some addresses. -/
def transactionsOf (lineSize : Nat) (addresses : List Nat) : Nat :=
  if addresses.any isShared then
    addresses.length
  else
    (coalesce addresses lineSize).length

/-- Without addresses there are no transactions. -/
@[simp] theorem transactionsOf_nil (lineSize : Nat) :
    transactionsOf lineSize [] = 0 := by
  simp [transactionsOf, coalesce]

/-- An operation that keeps the size of the L1 lines. -/
def KeepsLineSize (operation : MemoryM α) : Prop :=
  ∀ (before after : MemorySystem) (value : α),
    operation before = .ok value after →
    after.l1Cache.lineSize = before.l1Cache.lineSize

section Operations

theorem KeepsCaches.lineSize
    {operation : MemoryM α}
    (keeps : KeepsCaches operation) :
    KeepsLineSize operation := by
  intro before after value ran
  rw [(keeps before after value ran).2.1]

theorem KeepsLineSize.bind
    {first : MemoryM α}
    {next : α → MemoryM β}
    (firstKeeps : KeepsLineSize first)
    (nextKeeps : ∀ value, KeepsLineSize (next value)) :
    KeepsLineSize (first >>= next) := by
  intro before after result ran
  obtain ⟨value, middle, firstRan, nextRan⟩ := state_bind_ok.mp ran
  exact
    (nextKeeps value _ _ _ nextRan).trans (firstKeeps _ _ _ firstRan)

theorem KeepsLineSize.pure (value : α) :
    KeepsLineSize (pure value : MemoryM α) :=
  (KeepsCaches.pure value).lineSize

/-- A lookup in the L1 cache keeps the line size. -/
theorem onL1_lineSize
    (address : Nat)
    (isWrite : Bool) :
    KeepsLineSize (onL1 (Cache.lookupAndFill address isWrite)) := by
  intro before after value ran
  obtain ⟨cache, performed, rfl⟩ := onL1_ok ran
  exact Cache.lookupAndFill_lineSize performed

/-- The L2 cache has lines of its own. -/
theorem onL2_lineSize (operation : CacheM α) :
    KeepsLineSize (onL2 operation) := by
  intro before after value ran
  obtain ⟨cache, _, rfl⟩ := onL2_ok ran
  rfl

theorem readLatency_lineSize (address : Nat) :
    KeepsLineSize (readLatency address) := by
  refine .bind KeepsCaches.get.lineSize fun _ => ?_
  refine .bind (onL1_lineSize address false) fun l1Result => ?_
  split
  · exact .pure _
  · refine .bind (onL2_lineSize _) fun _ => ?_
    dsimp only
    split <;> exact .pure _

theorem writeLatency_lineSize (address : Nat) :
    KeepsLineSize (writeLatency address) := by
  refine .bind KeepsCaches.get.lineSize fun _ => ?_
  refine .bind (onL1_lineSize address true) fun l1Result => ?_
  have finishes (config : MemoryAccessConfig) (latency : Nat) :
      KeepsLineSize
        (if l1Result.dirtyEviction = true then
            pure (latency + config.writebackLatency, 1)
          else
            pure (latency, 0)) := by
    split <;> exact .pure _
  dsimp only
  split
  · exact .bind (.pure _) fun _ => finishes _ _
  · refine .bind (onL2_lineSize _) fun _ => ?_
    split <;> exact .bind (.pure _) fun _ => finishes _ _

/-- Charging lines keeps their size. -/
theorem chargeTransactions_lineSize
    {latencyOf : Nat → MemoryM (Nat × Nat)}
    (keeps : ∀ address, KeepsLineSize (latencyOf address))
    (lines : List Nat)
    (maxLatency dirty : Nat) :
    KeepsLineSize (chargeTransactions latencyOf lines maxLatency dirty) := by
  induction lines generalizing maxLatency dirty with
  | nil => exact .pure _
  | cons line rest inductionHypothesis =>
      exact .bind (keeps line) fun _ => inductionHypothesis _ _

end Operations

/-- What a warp access to some addresses counts. -/
structure Transacts
    (addresses : List Nat)
    (before : MemorySystem)
    (result : WarpMemoryResult)
    (after : MemorySystem) : Prop where
  lineSize : after.l1Cache.lineSize = before.l1Cache.lineSize
  transactions :
    result.numTransactions =
      transactionsOf before.l1Cache.lineSize addresses

/-- A warp access makes the transactions of its addresses. -/
theorem warpAccess_transacts
    {latencyOf : Nat → MemoryM (Nat × Nat)}
    {onShared : Nat → β → MemoryM (α × Nat)}
    {onGlobal : Nat → β → MemoryM α}
    (keeps : ∀ address, KeepsLineSize (latencyOf address))
    (sharedKeeps : ∀ address argument, KeepsCaches (onShared address argument))
    (globalKeeps : ∀ address argument, KeepsCaches (onGlobal address argument))
    {accesses : List (Nat × β)}
    {before after : MemorySystem}
    {values : List α}
    {result : WarpMemoryResult}
    (ran :
      warpAccess latencyOf onShared onGlobal accesses before =
        .ok (values, result) after) :
    Transacts (accesses.map Prod.fst) before result after := by
  unfold warpAccess at ran
  cases addresses : accesses.map Prod.fst with
  | nil =>
      simp only [addresses] at ran
      obtain ⟨shape, rfl⟩ := state_pure_ok.mp ran
      obtain ⟨rfl, rfl⟩ := Prod.mk.inj shape
      exact ⟨rfl, (transactionsOf_nil _).symm⟩
  | cons first rest =>
      simp only [addresses] at ran
      split at ran
      · exact (state_throw_not_ok ran).elim
      · rename_i uniform
        have sameSpace {address : Nat} := @isShared_eq first rest uniform address
        split at ran
        · rename_i shared
          obtain ⟨_, _, got, later⟩ := state_bind_ok.mp ran
          obtain ⟨rfl, rfl⟩ := state_get_ok.mp got
          obtain ⟨_, middle, accessed, returned⟩ := state_bind_ok.mp later
          obtain ⟨shape, rfl⟩ := state_pure_ok.mp returned
          obtain ⟨rfl, rfl⟩ := Prod.mk.inj shape
          have isAny : (first :: rest).any isShared = true :=
            List.any_eq_true.mpr ⟨first, List.mem_cons_self, shared⟩
          refine
            ⟨(sharedAccesses_keeps sharedKeeps _ _).lineSize _ _ _ accessed,
              ?_⟩
          rw [transactionsOf, if_pos isAny]
        · rename_i notShared
          obtain ⟨_, _, got, later⟩ := state_bind_ok.mp ran
          obtain ⟨rfl, rfl⟩ := state_get_ok.mp got
          obtain ⟨_, middle, charged, later⟩ := state_bind_ok.mp later
          obtain ⟨_, last, accessed, returned⟩ := state_bind_ok.mp later
          obtain ⟨shape, rfl⟩ := state_pure_ok.mp returned
          obtain ⟨rfl, rfl⟩ := Prod.mk.inj shape
          have notAny : ¬ (first :: rest).any isShared = true := by
            intro anyShared
            obtain ⟨address, member, shared⟩ :=
              List.any_eq_true.mp anyShared
            rw [sameSpace member] at shared
            exact notShared shared
          refine ⟨?_, ?_⟩
          · rw [(globalAccesses_keeps globalKeeps _).lineSize _ _ _ accessed]
            exact chargeTransactions_lineSize keeps _ _ _ _ _ _ charged
          · rw [transactionsOf, if_neg notAny]

theorem warpLoad_transacts
    {addresses : List Nat}
    {before after : MemorySystem}
    {values : List Word}
    {result : WarpMemoryResult}
    (ran : warpLoad addresses before = .ok (values, result) after) :
    Transacts addresses before result after := by
  have transacts :=
    warpAccess_transacts readLatency_lineSize
      (fun address _ => sharedLoad_keeps address)
      (fun address _ => globalLoad_keeps address) ran
  rwa [List.map_map, Function.comp_def, List.map_id'] at transacts

theorem warpStore_transacts
    {accesses : List (Nat × Word)}
    {before after : MemorySystem}
    {result : WarpMemoryResult}
    (ran : warpStore accesses before = .ok result after) :
    Transacts (accesses.map Prod.fst) before result after := by
  obtain ⟨_, middle, accessed, returned⟩ := state_bind_ok.mp ran
  obtain ⟨rfl, rfl⟩ := state_pure_ok.mp returned
  exact
    warpAccess_transacts writeLatency_lineSize
      (fun address value =>
        .bind (sharedStore_keeps address value) fun _ => .pure _)
      globalStore_keeps accessed

theorem warpAtomicAdd_transacts
    {accesses : List (Nat × Word)}
    {before after : MemorySystem}
    {result : WarpMemoryResult}
    (ran : warpAtomicAdd accesses before = .ok result after) :
    Transacts (accesses.map Prod.fst) before result after := by
  obtain ⟨_, middle, accessed, returned⟩ := state_bind_ok.mp ran
  obtain ⟨rfl, rfl⟩ := state_pure_ok.mp returned
  exact
    warpAccess_transacts writeLatency_lineSize
      (fun address _ =>
        .bind .get fun _ =>
          .bind (.lift _) fun _ =>
            .bind (sharedStore_keeps address _) fun _ => .pure _)
      (fun address _ =>
        .bind (globalLoad_keeps address) fun _ => globalStore_keeps address _)
      accessed

end MemorySystem

/-! ## One instruction -/

namespace PathState

/-- The transactions of an instruction. -/
def transactions
    (lineSize : Nat)
    (inst : Instruction)
    (state : PathState) :
    Nat :=
  MemorySystem.transactionsOf lineSize
    ((state.accesses inst).map Access.address)

end PathState

namespace InstructionExecutor

/-- What an executed instruction counts of its transactions. -/
structure Transacts
    (inst : Instruction)
    (before : Warp × MemorySystem)
    (result : ExecutionResult)
    (after : Warp × MemorySystem) : Prop where
  lineSize : after.2.l1Cache.lineSize = before.2.l1Cache.lineSize
  transactions :
    result.memoryTransactions =
      before.1.paths.transactions before.2.l1Cache.lineSize inst

theorem executeLoad_transacts
    {inst : Instruction}
    (opcode : inst.opcode = .load)
    {before after : Warp × MemorySystem}
    {result : ExecutionResult}
    (ran : executeLoad inst before.1 before = .ok result after) :
    Transacts inst before result after := by
  obtain ⟨lanes, entry, lifted, loads⟩ := state_bind_ok.mp ran
  obtain ⟨gathered, rfl⟩ := liftExcept_ok lifted
  obtain ⟨_, middle, accessed, advances⟩ := state_bind_ok.mp loads
  obtain ⟨_, final, advanced, returned⟩ := state_bind_ok.mp advances
  obtain ⟨rfl, rfl⟩ := state_pure_ok.mp returned
  have shape := gatherActive_lanes effectiveAddress_ok gathered
  have addresses :
      (entry.1.paths.accesses inst).map Access.address =
        lanes.map Prod.snd := by
    have access :
        (fun active : Nat × LaneState => active.2.access? inst) =
          some ∘ fun active =>
            Access.load (active.2.address inst.src1 inst) := by
      funext active
      simp only [LaneState.access?, opcode, Function.comp_apply]
    rw [PathState.accesses, access, List.filterMap_eq_map, shape,
      List.map_map, List.map_map]
    rfl
  have sameMemory := advanceTo_memory advanced
  cases lanes with
  | nil =>
      obtain ⟨rfl, rfl⟩ := state_pure_ok.mp accessed
      refine ⟨congrArg (fun memory => memory.l1Cache.lineSize) sameMemory, ?_⟩
      rw [PathState.transactions, addresses]
      exact (MemorySystem.transactionsOf_nil _).symm
  | cons first rest =>
      obtain ⟨⟨_, timing⟩, _, performed, later⟩ := state_bind_ok.mp accessed
      obtain ⟨_, _, wrote, returned⟩ := state_bind_ok.mp later
      obtain ⟨_, loaded⟩ := onMemory_ok performed
      obtain ⟨_, _, rfl⟩ := writeBack_ok wrote
      obtain ⟨rfl, rfl⟩ := state_pure_ok.mp returned
      obtain ⟨lineSize, transactions⟩ :=
        MemorySystem.warpLoad_transacts loaded
      refine ⟨?_, ?_⟩
      · rw [sameMemory]
        exact lineSize
      · rw [PathState.transactions, addresses]
        exact transactions

theorem executeStore_transacts
    {inst : Instruction}
    (opcode : inst.opcode = .store ∨ inst.opcode = .atomicAdd)
    {operation : List (Nat × Word) → MemoryM WarpMemoryResult}
    (operationTransacts :
      ∀ {accesses : List (Nat × Word)} {before after : MemorySystem}
        {timing : WarpMemoryResult},
        operation accesses before = .ok timing after →
        MemorySystem.Transacts (accesses.map Prod.fst) before timing after)
    {before after : Warp × MemorySystem}
    {result : ExecutionResult}
    (ran : executeStore operation inst before.1 before = .ok result after) :
    Transacts inst before result after := by
  obtain ⟨lanes, entry, lifted, stores⟩ := state_bind_ok.mp ran
  obtain ⟨gathered, rfl⟩ := liftExcept_ok lifted
  obtain ⟨_, middle, accessed, advances⟩ := state_bind_ok.mp stores
  obtain ⟨_, final, advanced, returned⟩ := state_bind_ok.mp advances
  obtain ⟨rfl, rfl⟩ := state_pure_ok.mp returned
  have shape :=
    @gatherActive_lanes _ _ _
      (fun lane : LaneState =>
        (lane.address inst.src2 inst, lane.read inst.src1))
      storeOperand_ok _ _ _ gathered
  have addresses :
      (entry.1.paths.accesses inst).map Access.address =
        (lanes.map Prod.snd).map Prod.fst := by
    rw [PathState.accesses, List.map_filterMap, shape, List.map_map,
      List.map_map, ← List.filterMap_eq_map]
    congr 1
    funext active
    rcases opcode with isStore | isAtomic
    · simp only [LaneState.access?, isStore]
      rfl
    · simp only [LaneState.access?, isAtomic]
      rfl
  have sameMemory := advanceTo_memory advanced
  generalize lanes.map Prod.snd = accesses at addresses accessed
  cases accesses with
  | nil =>
      obtain ⟨rfl, rfl⟩ := state_pure_ok.mp accessed
      refine ⟨congrArg (fun memory => memory.l1Cache.lineSize) sameMemory, ?_⟩
      rw [PathState.transactions, addresses]
      exact (MemorySystem.transactionsOf_nil _).symm
  | cons first rest =>
      obtain ⟨timing, _, performed, returned⟩ := state_bind_ok.mp accessed
      obtain ⟨_, stored⟩ := onMemory_ok performed
      obtain ⟨rfl, rfl⟩ := state_pure_ok.mp returned
      obtain ⟨lineSize, transactions⟩ := operationTransacts stored
      refine ⟨?_, ?_⟩
      · rw [sameMemory]
        exact lineSize
      · rw [PathState.transactions, addresses]
        exact transactions

/-- The transactions of every instruction that executes. -/
theorem execute_transacts
    {inst : Instruction}
    {before after : Warp × MemorySystem}
    {result : ExecutionResult}
    (ran : execute inst before = .ok result after) :
    Transacts inst before result after := by
  by_cases isMemory : SM.isMemoryOpcode inst.opcode = true
  · rw [SM.isMemoryOpcode, Bool.or_eq_true, Bool.or_eq_true, beq_iff_eq,
      beq_iff_eq, beq_iff_eq] at isMemory
    rcases isMemory with (opcode | opcode) | opcode
    · simp only [execute_eq, executeOpcode, opcode] at ran
      exact executeLoad_transacts opcode ran
    · simp only [execute_eq, executeOpcode, opcode] at ran
      exact
        executeStore_transacts (Or.inl opcode)
          MemorySystem.warpStore_transacts ran
    · simp only [execute_eq, executeOpcode, opcode] at ran
      exact
        executeStore_transacts (Or.inr opcode)
          MemorySystem.warpAtomicAdd_transacts ran
  · rw [Bool.not_eq_true] at isMemory
    obtain ⟨same, _, noTransactions⟩ :=
      executeOpcode_quiet isMemory before.1 _ _ _ ran
    have nothing : before.1.paths.accesses inst = [] := by
      refine accesses_eq_nil (fun memory => ?_) _
      rcases memory with opcode | opcode | opcode <;>
        (rw [opcode] at isMemory; cases isMemory)
    refine ⟨by rw [same], ?_⟩
    rw [PathState.transactions, nothing, noTransactions]
    exact (MemorySystem.transactionsOf_nil _).symm

end InstructionExecutor

end SimSm
