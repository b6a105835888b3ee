import Mathlib.Data.List.Basic
import SimSm.Execution

namespace SimSm

/-!
# The path machine

An abstract view of a warp that executes arithmetic and control instructions:
the registers and predicate of every lane, the path being executed, and the
paths that wait on the SIMT stack.  Scheduling state, shadow pcs and memory are
gone.  The executor refines this machine on every such instruction.
-/

/-- The architectural state of one lane. -/
structure LaneState where
  registers : RegisterFile 32
  predicate : Bool
  deriving DecidableEq

namespace LaneState

/-- The value of a register operand. -/
def read (lane : LaneState) (operand : Int) : Word :=
  lane.registers.registers[sizeT operand]?.getD 0

/-- The lane after writing a register operand. -/
def write (lane : LaneState) (operand : Int) (value : Word) : LaneState :=
  { lane with
    registers :=
      { registers :=
          lane.registers.registers.setIfInBounds (sizeT operand) value } }

/-- The scalar meaning of an instruction; control leaves the lane alone. -/
def execute (inst : Instruction) (lane : LaneState) : LaneState :=
  match inst.opcode with
  | .add => lane.write inst.dst (lane.read inst.src1 + lane.read inst.src2)
  | .sub => lane.write inst.dst (lane.read inst.src1 - lane.read inst.src2)
  | .mul => lane.write inst.dst (lane.read inst.src1 * lane.read inst.src2)
  | .mov =>
      lane.write inst.dst
        (if inst.src1 = -1 then
          BitVec.ofInt 32 inst.immediate
        else
          lane.read inst.src1)
  | .cmp =>
      { lane with predicate := lane.read inst.src1 == lane.read inst.src2 }
  | _ => lane

end LaneState

/-- The architectural state of a thread. -/
def Thread.lane (thread : Thread) : LaneState where
  registers := thread.registers
  predicate := thread.predicate

/-- The architectural states of a warp's threads. -/
def Warp.lanes (warp : Warp) : List LaneState :=
  warp.threads.map Thread.lane

/-- An operand that names one of the thirty-two registers. -/
def RegisterOperand (operand : Int) : Prop :=
  0 ≤ operand ∧ operand < 32

instance (operand : Int) : Decidable (RegisterOperand operand) :=
  inferInstanceAs (Decidable (_ ∧ _))

/-- `ADD`, `SUB`, `MUL`, `MOV` and `CMP` with valid register operands. -/
def Instruction.Arithmetic (inst : Instruction) : Prop :=
  match inst.opcode with
  | .add | .sub | .mul =>
      RegisterOperand inst.dst ∧ RegisterOperand inst.src1 ∧
        RegisterOperand inst.src2
  | .mov =>
      RegisterOperand inst.dst ∧
        (inst.src1 = -1 ∨ RegisterOperand inst.src1)
  | .cmp => RegisterOperand inst.src1 ∧ RegisterOperand inst.src2
  | _ => False

instance (inst : Instruction) : Decidable inst.Arithmetic := by
  unfold Instruction.Arithmetic
  split <;> infer_instance

/-- The three opcodes that move lanes between paths. -/
def Opcode.isControl (opcode : Opcode) : Bool :=
  opcode == .branch || opcode == .ssy || opcode == .sync

/-- Arithmetic with valid operands, or control. -/
def Instruction.Regular (inst : Instruction) : Prop :=
  inst.Arithmetic ∨ inst.opcode.isControl = true

instance (inst : Instruction) : Decidable inst.Regular :=
  inferInstanceAs (Decidable (_ ∨ _))

/-- Some lanes and the pc from which they continue. -/
structure Path where
  mask : ActiveMask
  pc : Nat
  deriving DecidableEq

/-- A stack entry as the path it resumes. -/
def SIMTStackEntry.path (entry : SIMTStackEntry) : Path where
  mask := entry.activeMask
  pc := entry.targetPc

/-- The lanes, the current path and the waiting paths, top of stack first. -/
structure PathState where
  lanes : List LaneState
  current : Path
  pending : List Path
  deriving DecidableEq

/-- What the path machine sees of a warp. -/
def Warp.paths (warp : Warp) : PathState where
  lanes := warp.lanes
  current := ⟨warp.activeMask, warp.warpPc⟩
  pending := warp.simtStack.map SIMTStackEntry.path

/-- Apply a lane function to the lanes of a mask. -/
def onMask
    (mask : ActiveMask)
    (transform : LaneState → LaneState)
    (lanes : List LaneState) :
    List LaneState :=
  lanes.mapIdx fun lane state =>
    if mask.getLsbD lane then transform state else state

@[simp] theorem length_onMask
    (mask : ActiveMask)
    (transform : LaneState → LaneState)
    (lanes : List LaneState) :
    (onMask mask transform lanes).length = lanes.length := by
  simp [onMask]

@[simp] theorem getElem?_onMask
    (mask : ActiveMask)
    (transform : LaneState → LaneState)
    (lanes : List LaneState)
    (lane : Nat) :
    (onMask mask transform lanes)[lane]? =
      lanes[lane]?.map fun state =>
        if mask.getLsbD lane then transform state else state := by
  simp [onMask]

@[simp] theorem onMask_id
    (mask : ActiveMask)
    (lanes : List LaneState) :
    onMask mask (fun lane => lane) lanes = lanes := by
  apply List.ext_getElem?
  intro lane
  cases lookup : lanes[lane]? <;> simp [lookup]

/-- The mask of the lanes below thirty-two that satisfy a predicate. -/
def ActiveMask.ofLanes (holds : Nat → Bool) : ActiveMask :=
  (List.range 32).foldl
    (fun mask lane => if holds lane then mask.set lane else mask) 0

/-- Membership in a mask collected from a range of lanes. -/
theorem ActiveMask.getLsbD_ofLanes
    (holds : Nat → Bool)
    (query : Nat) :
    (ActiveMask.ofLanes holds).getLsbD query =
      (decide (query < 32) && holds query) := by
  have collected
      (count : Nat) :
      count ≤ 32 →
      ((List.range count).foldl
          (fun mask lane => if holds lane then ActiveMask.set mask lane else mask)
          (0 : ActiveMask)).getLsbD query =
        (decide (query < count) && holds query) := by
    intro inRange
    induction count with
    | zero =>
        simp
    | succ count inductionHypothesis =>
        rw [List.range_succ, List.foldl_append]
        simp only [List.foldl_cons, List.foldl_nil]
        cases selected : holds count with
        | false =>
            simp only [Bool.false_eq_true, if_false]
            rw [inductionHypothesis (by omega)]
            by_cases same : query = count
            · subst same
              simp [selected]
            · congr 1
              simp only [decide_eq_decide]
              omega
        | true =>
            simp only [if_true, ActiveMask.getLsbD_set]
            rw [inductionHypothesis (by omega)]
            by_cases same : query = count
            · subst same
              simp [selected]
              omega
            · have : query < count + 1 ↔ query < count := by omega
              simp [same, this]
  exact collected 32 (Nat.le_refl 32)

namespace PathState

/-- The active lanes whose predicate is set. -/
def taken (state : PathState) : ActiveMask :=
  ActiveMask.ofLanes fun lane =>
    state.current.mask.getLsbD lane &&
      (state.lanes[lane]?.map LaneState.predicate).getD false

/-- Membership in the taken lanes of a path state. -/
theorem getLsbD_taken
    (state : PathState)
    (lane : Nat) :
    state.taken.getLsbD lane = true ↔
      lane < 32 ∧ state.current.mask.getLsbD lane = true ∧
        ∃ laneState,
          state.lanes[lane]? = some laneState ∧
            laneState.predicate = true := by
  rw [taken, ActiveMask.getLsbD_ofLanes]
  cases lookup : state.lanes[lane]? <;> simp

/-- An active lane is taken exactly when its predicate is set. -/
theorem taken_decides
    {state : PathState}
    {lane : Nat}
    {laneState : LaneState}
    (lookup : state.lanes[lane]? = some laneState)
    (active : state.current.mask.getLsbD lane = true) :
    state.taken.getLsbD lane = laneState.predicate := by
  rw [Bool.eq_iff_iff, getLsbD_taken]
  constructor
  · rintro ⟨-, -, found, foundShape, holds⟩
    rw [lookup] at foundShape
    cases foundShape
    exact holds
  · intro holds
    exact ⟨BitVec.lt_of_getLsbD active, active, laneState, lookup, holds⟩

/-- Continue the current path at another pc. -/
def goto (state : PathState) (pc : Nat) : PathState :=
  { state with current := { state.current with pc := pc } }

/-- Split the current path: the taken lanes branch, the others wait. -/
def diverge (state : PathState) (target : Nat) : PathState :=
  { state with
    current := ⟨state.taken, target⟩
    pending :=
      ⟨state.current.mask &&& ~~~state.taken, nextPc state.current.pc⟩ ::
        state.pending }

/-- Execute a branch. -/
def branch (state : PathState) (target : Nat) : PathState :=
  if state.taken = 0 then
    state.goto (nextPc state.current.pc)
  else if state.taken = state.current.mask then
    state.goto target
  else
    state.diverge target

/-- Resume the topmost waiting path, past the `SYNC` if it waits there. -/
def sync (state : PathState) : Option PathState :=
  match state.pending with
  | [] => none
  | path :: rest =>
      some
        { state with
          current :=
            ⟨path.mask,
              if path.pc = state.current.pc then
                nextPc state.current.pc
              else
                path.pc⟩
          pending := rest }

/-- Execute one instruction; `none` is a `SYNC` with nothing to resume. -/
def execute (inst : Instruction) (state : PathState) : Option PathState :=
  match inst.opcode with
  | .branch =>
      some (state.branch (branchPc state.current.pc inst.immediate))
  | .ssy =>
      some
        { state.goto (nextPc state.current.pc) with
          pending :=
            ⟨state.current.mask,
                branchPc state.current.pc inst.immediate⟩ ::
              state.pending }
  | .sync => state.sync
  | _ =>
      some
        { state.goto (nextPc state.current.pc) with
          lanes := onMask state.current.mask (LaneState.execute inst) state.lanes }

end PathState

/-! ## The executor refines the path machine -/

open Outcome InstructionExecutor

/-- A register operand is in bounds after its conversion to `size_t`. -/
theorem RegisterOperand.inBounds
    {operand : Int}
    (valid : RegisterOperand operand) :
    sizeT operand < 32 := by
  obtain ⟨nonnegative, small⟩ := valid
  unfold sizeT
  omega

/-- Reading a valid operand yields the lane's value. -/
theorem RegisterFile.read_of_valid
    {thread : Thread}
    {operand : Int}
    (valid : RegisterOperand operand) :
    thread.registers.read operand = .ok (thread.lane.read operand) := by
  simp [RegisterFile.read, valid.inBounds, LaneState.read, Thread.lane]

/-- Writing a valid operand yields the lane's register file. -/
theorem RegisterFile.write_of_valid
    {thread : Thread}
    {operand : Int}
    (valid : RegisterOperand operand)
    (value : Word) :
    thread.registers.write operand value =
      .ok (thread.lane.write operand value).registers := by
  have inBounds := valid.inBounds
  simp only [RegisterFile.write, inBounds, dif_pos, LaneState.write,
    Thread.lane, Except.ok.injEq, RegisterFile.mk.injEq]
  apply Vector.ext
  intro index inside
  simp [Vector.getElem_set, Vector.getElem_setIfInBounds]

/-- A thread with the architectural state of a lane. -/
def Thread.setLane (thread : Thread) (lane : LaneState) : Thread :=
  { thread with
    registers := lane.registers
    predicate := lane.predicate }

@[simp] theorem Thread.lane_setLane
    (thread : Thread)
    (lane : LaneState) :
    (thread.setLane lane).lane = lane :=
  rfl

/-- An arithmetic instruction executes its scalar meaning on each thread. -/
theorem Instruction.Arithmetic.body
    {inst : Instruction}
    (arithmetic : inst.Arithmetic) :
    ∃ body,
      threadBody? inst = some body ∧
        ∀ thread,
          body thread = .ok (thread.setLane (thread.lane.execute inst)) := by
  have operationCase
      (operation : Word → Word → Word)
      (operands :
        RegisterOperand inst.dst ∧ RegisterOperand inst.src1 ∧
          RegisterOperand inst.src2)
      (thread : Thread) :
      arithmeticThread operation inst thread =
        .ok
          (thread.setLane
            (thread.lane.write inst.dst
              (operation (thread.lane.read inst.src1)
                (thread.lane.read inst.src2)))) := by
    obtain ⟨dst, src1, src2⟩ := operands
    simp only [arithmeticThread, RegisterFile.read_of_valid src1,
      RegisterFile.read_of_valid src2, RegisterFile.write_of_valid dst,
      bind, Except.bind, pure, Except.pure]
    rfl
  unfold Instruction.Arithmetic at arithmetic
  unfold threadBody? LaneState.execute
  cases opcode : inst.opcode <;> simp only [opcode] at arithmetic ⊢
  case add | sub | mul =>
    exact ⟨_, rfl, operationCase _ arithmetic⟩
  case mov =>
    refine ⟨_, rfl, fun thread => ?_⟩
    obtain ⟨dst, source⟩ := arithmetic
    by_cases immediate : inst.src1 = -1
    · simp only [movThread, immediate, if_true,
        RegisterFile.write_of_valid dst, bind, Except.bind, pure, Except.pure]
      rfl
    · have src1 := source.resolve_left immediate
      simp only [movThread, immediate, if_false,
        RegisterFile.read_of_valid src1, RegisterFile.write_of_valid dst,
        bind, Except.bind, pure, Except.pure]
      rfl
  case cmp =>
    refine ⟨_, rfl, fun thread => ?_⟩
    obtain ⟨src1, src2⟩ := arithmetic
    simp only [cmpThread, RegisterFile.read_of_valid src1,
      RegisterFile.read_of_valid src2, bind, Except.bind, pure, Except.pure]
    rfl

/-- Setting shadow pcs succeeds and keeps all architectural state. -/
theorem advanceTo_succeeds
    {warp : Warp}
    (lanes : warp.threads.length ≤ 32)
    (activeMask : ActiveMask)
    (pc : Nat)
    (memory : MemorySystem) :
    ∃ after,
      advanceTo activeMask pc (warp, memory) = .ok () (after, memory) ∧
        after.paths = (warp.paths.goto pc) := by
  obtain ⟨threads, looped⟩ :=
    @mapActive_succeeds activeMask (shadowThread pc) 0 warp.threads
      (by omega) (fun _ _ => ⟨_, rfl⟩)
  have ran :
      advanceTo activeMask pc (warp, memory) =
        .ok () ({ warp with warpPc := pc, threads := threads }, memory) := by
    unfold advanceTo modifyWarp
    refine state_bind_ok.mpr ⟨(), _, state_modify_ok.mpr rfl, ?_⟩
    simp [updateShadowPcs, forActiveThreads, looped]
  refine ⟨_, ran, ?_⟩
  have kept : threads.map Thread.lane = warp.threads.map Thread.lane := by
    refine (mapActive_ok looped).map_eq Thread.lane ?_
    intro thread changed shadowed
    simp only [shadowThread, Except.ok.injEq] at shadowed
    simp [← shadowed, Thread.lane]
  simp [Warp.paths, Warp.lanes, PathState.goto, kept]

/-- A lane loop whose body always succeeds applies it to the active lanes. -/
theorem forActiveThreads_succeeds
    {warp : Warp}
    (lanes : warp.threads.length ≤ 32)
    {body : Thread → Except SimError Thread}
    {transform : LaneState → LaneState}
    (succeeds :
      ∀ thread, body thread = .ok (thread.setLane (transform thread.lane)))
    (memory : MemorySystem) :
    ∃ threads,
      forActiveThreads warp.activeMask body (warp, memory) =
          .ok () ({ warp with threads := threads }, memory) ∧
        threads.length = warp.threads.length ∧
        threads.map Thread.lane =
          onMask warp.activeMask transform warp.lanes := by
  obtain ⟨threads, looped⟩ :=
    @mapActive_succeeds warp.activeMask body 0 warp.threads
      (by omega) (fun _ _ => ⟨_, succeeds _⟩)
  have update := mapActive_ok looped
  refine ⟨threads, by simp [forActiveThreads, looped], update.length, ?_⟩
  apply List.ext_getElem?
  intro lane
  simp only [List.getElem?_map, getElem?_onMask, Warp.lanes]
  cases active : warp.activeMask.getLsbD lane with
  | false =>
      rw [update.kept (by rwa [Nat.zero_add])]
      simp [Function.comp_def]
  | true =>
      cases lookup : warp.threads[lane]? with
      | none =>
          have missing : threads[lane]? = none := by
            rw [List.getElem?_eq_none_iff, update.length]
            exact List.getElem?_eq_none_iff.mp lookup
          simp [missing]
      | some thread =>
          obtain ⟨changed, changedShape, found⟩ :=
            update.updated lookup (by rwa [Nat.zero_add])
          rw [succeeds] at changedShape
          cases changedShape
          simp [found]

/-- The machine's taken lanes are the warp's. -/
theorem PathState.taken_eq
    {warp : Warp}
    {taken : ActiveMask}
    (shape : TakenLanes warp taken) :
    warp.paths.taken = taken := by
  apply ActiveMask.eq_of_lanes
  intro lane inRange
  rw [PathState.taken, ActiveMask.getLsbD_ofLanes, Bool.eq_iff_iff, shape lane]
  simp only [inRange, decide_true, Bool.true_and, Bool.and_eq_true]
  apply and_congr_right
  intro _
  cases lookup : warp.threads[lane]? <;>
    simp [Warp.paths, Warp.lanes, lookup, Thread.lane]

/-- What a refined instruction reports and leaves behind. -/
structure Refined
    (inst : Instruction)
    (warp : Warp)
    (memory : MemorySystem)
    (next : PathState)
    (result : ExecutionResult)
    (after : Warp) : Prop where
  ran :
    InstructionExecutor.execute inst (warp, memory) =
      .ok result (after, memory)
  latency : result.latency = 1
  paths : after.paths = next

/-- Arithmetic instructions refine the machine's lane update. -/
theorem refined_arithmetic
    {inst : Instruction}
    {warp : Warp}
    (arithmetic : inst.Arithmetic)
    (lanes : warp.threads.length ≤ 32)
    (memory : MemorySystem) :
    ∃ result after,
      Refined inst warp memory
        { warp.paths.goto (nextPc warp.warpPc) with
          lanes :=
            onMask warp.activeMask (LaneState.execute inst) warp.lanes }
        result after := by
  obtain ⟨body, shape, succeeds⟩ := arithmetic.body
  obtain ⟨threads, looped, length, laneStates⟩ :=
    forActiveThreads_succeeds lanes succeeds memory
  obtain ⟨after, advanced, paths⟩ :=
    @advanceTo_succeeds { warp with threads := threads }
      (by simpa [length] using lanes) warp.activeMask
      (nextPc warp.warpPc) memory
  refine ⟨{}, after, ?_, rfl, ?_⟩
  · rw [execute_of_threadBody? shape]
    simp [executeThreads, bind, EStateM.bind, looped, advanced, pure,
      EStateM.pure]
  · rw [paths]
    simp [Warp.paths, Warp.lanes, PathState.goto, laneStates]

/-- `BRANCH` refines the machine's branch. -/
theorem refined_branch
    {inst : Instruction}
    {warp : Warp}
    (opcode : inst.opcode = .branch)
    (lanes : warp.threads.length ≤ 32)
    (memory : MemorySystem) :
    ∃ result after,
      Refined inst warp memory
        (warp.paths.branch (branchPc warp.warpPc inst.immediate))
        result after := by
  obtain ⟨taken, computed⟩ :=
    @takenMask_succeeds warp.activeMask 0 0 warp.threads (by omega)
  have sameTaken := PathState.taken_eq (takenMask_takenLanes computed)
  have gathered :
      (liftExcept (takenMask warp.activeMask 0 warp.threads 0) :
          ExecM ActiveMask) (warp, memory) =
        .ok taken (warp, memory) := by
    rw [computed]
    rfl
  have shape :
      InstructionExecutor.execute inst (warp, memory) =
        executeBranch inst warp (warp, memory) := by
    simp [execute_eq, executeOpcode, opcode]
  unfold executeBranch at shape
  by_cases none : taken = 0
  · obtain ⟨after, advanced, paths⟩ :=
      advanceTo_succeeds lanes warp.activeMask (nextPc warp.warpPc) memory
    refine ⟨{}, after, ?_, rfl, ?_⟩
    · rw [shape]
      refine state_bind_ok.mpr ⟨taken, _, gathered, ?_⟩
      rw [if_pos none]
      exact state_bind_ok.mpr ⟨(), _, advanced, rfl⟩
    · rw [PathState.branch, sameTaken, if_pos none, paths]
      rfl
  · by_cases all : taken = warp.activeMask
    · obtain ⟨after, advanced, paths⟩ :=
        advanceTo_succeeds lanes warp.activeMask
          (branchPc warp.warpPc inst.immediate) memory
      refine ⟨{ status := .branchTaken }, after, ?_, rfl, ?_⟩
      · rw [shape]
        refine state_bind_ok.mpr ⟨taken, _, gathered, ?_⟩
        rw [if_neg none, if_pos all]
        exact state_bind_ok.mpr ⟨(), _, advanced, rfl⟩
      · rw [PathState.branch, sameTaken, if_neg none, paths]
        exact (if_pos all).symm
    · obtain ⟨after, advanced, paths⟩ :=
        @advanceTo_succeeds
          { warp.pushSimtStack
              { activeMask := warp.activeMask &&& ~~~taken
                targetPc := nextPc warp.warpPc
                reconvergencePc := warp.reconvergencePc } with
            activeMask := taken }
          lanes warp.activeMask (branchPc warp.warpPc inst.immediate) memory
      refine ⟨{ status := .branchTaken }, after, ?_, rfl, ?_⟩
      · rw [shape]
        refine state_bind_ok.mpr ⟨taken, _, gathered, ?_⟩
        rw [if_neg none, if_neg all]
        refine state_bind_ok.mpr ⟨(), _, state_modify_ok.mpr rfl, ?_⟩
        exact state_bind_ok.mpr ⟨(), _, advanced, rfl⟩
      · rw [PathState.branch, sameTaken, if_neg none, paths]
        refine Eq.trans ?_ (if_neg all).symm
        rw [PathState.diverge, sameTaken]
        rfl

/-- `SSY` refines the machine's push of the region's lanes. -/
theorem refined_ssy
    {inst : Instruction}
    {warp : Warp}
    (opcode : inst.opcode = .ssy)
    (lanes : warp.threads.length ≤ 32)
    (memory : MemorySystem) :
    ∃ result after,
      Refined inst warp memory
        { warp.paths.goto (nextPc warp.warpPc) with
          pending :=
            ⟨warp.activeMask, branchPc warp.warpPc inst.immediate⟩ ::
              warp.paths.pending }
        result after := by
  obtain ⟨after, advanced, paths⟩ :=
    @advanceTo_succeeds
      { warp.pushSimtStack
          { activeMask := warp.activeMask
            targetPc := branchPc warp.warpPc inst.immediate
            reconvergencePc := warp.reconvergencePc } with
        reconvergencePc := branchPc warp.warpPc inst.immediate }
      lanes warp.activeMask (nextPc warp.warpPc) memory
  refine ⟨{}, after, ?_, rfl, ?_⟩
  · simp only [execute_eq, executeOpcode, opcode]
    refine state_bind_ok.mpr ⟨(), _, state_modify_ok.mpr rfl, ?_⟩
    exact state_bind_ok.mpr ⟨(), _, advanced, rfl⟩
  · rw [paths]
    simp [Warp.paths, Warp.lanes, Warp.pushSimtStack, PathState.goto,
      SIMTStackEntry.path]

/-- `SYNC` refines the machine's resumption of a waiting path. -/
theorem refined_sync
    {inst : Instruction}
    {warp : Warp}
    {next : PathState}
    (opcode : inst.opcode = .sync)
    (lanes : warp.threads.length ≤ 32)
    (resumed : warp.paths.sync = some next)
    (memory : MemorySystem) :
    ∃ result after,
      Refined inst warp memory next result after := by
  cases stack : warp.simtStack with
  | nil =>
      simp [PathState.sync, Warp.paths, stack] at resumed
  | cons entry rest =>
      obtain ⟨after, advanced, paths⟩ :=
        @advanceTo_succeeds
          { warp with
            simtStack := rest
            activeMask := entry.activeMask
            reconvergencePc := entry.reconvergencePc }
          lanes warp.activeMask
          (if entry.targetPc = warp.warpPc then
            nextPc warp.warpPc
          else
            entry.targetPc)
          memory
      refine ⟨{}, after, ?_, rfl, ?_⟩
      · simp only [execute_eq, executeOpcode, opcode, executeSync,
          Warp.popSimtStack, stack]
        refine state_bind_ok.mpr ⟨(), _, state_modify_ok.mpr rfl, ?_⟩
        exact state_bind_ok.mpr ⟨(), _, advanced, rfl⟩
      · simp only [PathState.sync, Warp.paths, stack, List.map_cons,
          Option.some.injEq] at resumed
        rw [paths, ← resumed]
        rfl

/--
Refinement: a regular instruction that the path machine executes succeeds on
the warp, takes one cycle, keeps the memory system, and leaves the warp in the
machine's next state.
-/
theorem execute_refines
    {inst : Instruction}
    {warp : Warp}
    {next : PathState}
    (regular : inst.Regular)
    (lanes : warp.threads.length ≤ 32)
    (executed : warp.paths.execute inst = some next)
    (memory : MemorySystem) :
    ∃ result after, Refined inst warp memory next result after := by
  rcases regular with arithmetic | control
  · have shape := refined_arithmetic arithmetic lanes memory
    unfold Instruction.Arithmetic at arithmetic
    unfold PathState.execute at executed
    cases opcode : inst.opcode <;> simp only [opcode] at arithmetic executed
    case add | sub | mul | mov | cmp =>
      cases executed
      exact shape
  · unfold PathState.execute at executed
    cases opcode : inst.opcode <;>
      simp only [opcode] at executed <;>
      simp [Opcode.isControl, opcode] at control
    case branch =>
      cases executed
      exact refined_branch opcode lanes memory
    case ssy =>
      cases executed
      exact refined_ssy opcode lanes memory
    case sync => exact refined_sync opcode lanes executed memory

/--
Every instruction that executes, memory accesses and barriers included, moves
the paths of its warp as the machine does.
-/
theorem execute_control
    {inst : Instruction}
    {result : ExecutionResult}
    {warp executed : Warp}
    {memory memory' : MemorySystem}
    (ran :
      InstructionExecutor.execute inst (warp, memory) =
        .ok result (executed, memory')) :
    ∃ next,
      warp.paths.execute inst = some next ∧
        next.current = executed.paths.current ∧
        next.pending = executed.paths.pending := by
  have currentOf
      {mask : ActiveMask}
      {pc : Nat}
      (sameMask : executed.activeMask = mask)
      (samePc : executed.warpPc = pc) :
      (⟨mask, pc⟩ : Path) = executed.paths.current := by
    rw [← sameMask, ← samePc]
    rfl
  have pendingOf
      {entries : List SIMTStackEntry}
      (same : executed.simtStack = entries) :
      entries.map SIMTStackEntry.path = executed.paths.pending := by
    rw [← same]
    rfl
  cases (execute_ok ran).control with
  | fallThrough straight pc mask stack =>
      refine
        ⟨{ warp.paths.goto (nextPc warp.warpPc) with
            lanes :=
              onMask warp.activeMask (LaneState.execute inst) warp.lanes },
          ?_, currentOf mask pc, pendingOf stack⟩
      rcases straight with body | isLoad | isStore | isAtomic
      · obtain ⟨body, shape⟩ := Option.isSome_iff_exists.mp body
        rcases threadBody?_opcode shape with
          opcode | opcode | opcode | opcode | opcode <;>
          simp only [PathState.execute, opcode] <;> rfl
      · simp only [PathState.execute, isLoad]
        rfl
      · simp only [PathState.execute, isStore]
        rfl
      · simp only [PathState.execute, isAtomic]
        rfl
  | barrier opcode convergent pc mask stack =>
      refine
        ⟨{ warp.paths.goto (nextPc warp.warpPc) with
            lanes :=
              onMask warp.activeMask (LaneState.execute inst) warp.lanes },
          ?_, currentOf mask pc, pendingOf stack⟩
      simp only [PathState.execute, opcode]
      rfl
  | branchNone opcode taken pc mask stack =>
      refine
        ⟨warp.paths.goto (nextPc warp.warpPc), ?_, currentOf mask pc,
          pendingOf stack⟩
      simp only [PathState.execute, opcode]
      rw [PathState.branch, PathState.taken_eq taken, if_pos rfl]
      rfl
  | branchAll opcode some taken pc mask stack =>
      refine
        ⟨warp.paths.goto (branchPc warp.warpPc inst.immediate), ?_,
          currentOf mask pc, pendingOf stack⟩
      simp only [PathState.execute, opcode]
      rw [PathState.branch, PathState.taken_eq taken, if_neg some]
      exact congrArg Option.some (if_pos rfl)
  | diverge opcode taken some proper pc stack =>
      refine
        ⟨warp.paths.diverge (branchPc warp.warpPc inst.immediate), ?_, ?_,
          ?_⟩
      · simp only [PathState.execute, opcode]
        rw [PathState.branch, PathState.taken_eq taken, if_neg some]
        exact congrArg Option.some (if_neg proper)
      · rw [PathState.diverge, PathState.taken_eq taken]
        exact currentOf rfl pc
      · rw [PathState.diverge, PathState.taken_eq taken]
        exact pendingOf stack
  | ssy opcode pc mask stack =>
      refine
        ⟨{ warp.paths.goto (nextPc warp.warpPc) with
            pending :=
              ⟨warp.activeMask, branchPc warp.warpPc inst.immediate⟩ ::
                warp.paths.pending },
          ?_, currentOf mask pc, pendingOf stack⟩
      simp only [PathState.execute, opcode]
      rfl
  | syncToken opcode entry popped target pc mask =>
      dsimp only at popped target pc mask
      refine
        ⟨{ warp.paths with
            current := executed.paths.current
            pending := executed.paths.pending }, ?_, rfl, rfl⟩
      simp only [PathState.execute, opcode, PathState.sync, Warp.paths,
        popped, List.map_cons, SIMTStackEntry.path, target, if_true, pc,
        mask]
  | syncDeferred opcode entry popped target pc mask =>
      dsimp only at popped target pc mask
      refine
        ⟨{ warp.paths with
            current := executed.paths.current
            pending := executed.paths.pending }, ?_, rfl, rfl⟩
      simp only [PathState.execute, opcode, PathState.sync, Warp.paths,
        popped, List.map_cons, SIMTStackEntry.path, target, if_false, pc,
        mask]

end SimSm
