import SimSm.Benchmarks
import SimSm.Structured
import SimSm.WarpAgent

namespace SimSm

/-!
# Lanes that own their memories

The path machine once more, now with a memory of its own for every lane: what
the lane would find in memory if nobody else wrote to it.  Each lane records
what it has touched.  Code between two barriers then has a meaning lane by lane,
whatever the other lanes and warps do.
-/

open Interleaving

namespace LaneState

/-- A register that is written holds the value, and no other one changes. -/
theorem read_write
    {dst src : Int}
    (validDst : RegisterOperand dst)
    (validSrc : RegisterOperand src)
    (value : Word)
    (lane : LaneState) :
    (lane.write dst value).read src =
      if src = dst then value else lane.read src := by
  have dstInside := validDst.inBounds
  have srcInside := validSrc.inBounds
  have sameIndex : sizeT dst = sizeT src ↔ src = dst := by
    obtain ⟨_, _⟩ := validDst
    obtain ⟨_, _⟩ := validSrc
    unfold sizeT
    omega
  simp only [read, write, Vector.getElem?_setIfInBounds, sameIndex,
    dstInside, if_true]
  split <;> rfl

/-- A register that is not written keeps its value. -/
theorem read_write_of_ne
    {dst src : Int}
    (inRange : -1 ≤ dst ∧ dst < 32)
    (validSrc : RegisterOperand src)
    (other : dst ≠ src)
    (value : Word)
    (lane : LaneState) :
    (lane.write dst value).read src = lane.read src := by
  have srcInside := validSrc.inBounds
  have otherIndex : sizeT dst ≠ sizeT src := by
    obtain ⟨_, _⟩ := validSrc
    obtain ⟨_, _⟩ := inRange
    unfold sizeT
    omega
  simp only [read, write, Vector.getElem?_setIfInBounds, otherIndex,
    if_false]

/-- Registers are read whatever the predicate. -/
theorem read_predicate
    (lane : LaneState)
    (predicate : Bool)
    (src : Int) :
    LaneState.read ⟨lane.registers, predicate⟩ src = lane.read src :=
  rfl

/-- The address to which a word converts. -/
def pointer (word : Word) : Nat :=
  sizeT word.toInt

theorem address_eq
    {src : Int}
    {inst : Instruction}
    (isRegister : src ≠ -1)
    (noOffset : inst.immediate = 0)
    (lane : LaneState) :
    lane.address src inst = pointer (lane.read src) := by
  rw [address, if_neg isRegister, noOffset, Int.add_zero]
  rfl

/-- A small number in a register and an offset add up to an address. -/
theorem address_offset
    {src : Int}
    {inst : Instruction}
    {lane : LaneState}
    {base offset : Nat}
    (isRegister : src ≠ -1)
    (isBase : lane.read src = BitVec.ofNat 32 base)
    (isOffset : inst.immediate = (offset : Int))
    (small : base < 2 ^ 31)
    (fits : base + offset < 2 ^ 64) :
    lane.address src inst = base + offset := by
  have value : (BitVec.ofNat 32 base).toInt = (base : Int) := by
    rw [BitVec.toInt_eq_toNat_of_lt, BitVec.toNat_ofNat]
    · omega
    · rw [BitVec.toNat_ofNat]
      omega
  rw [address, if_neg isRegister, isBase, isOffset, value,
    ← Int.natCast_add]
  exact sizeT_natCast fits

/-- A small number is its own address. -/
theorem pointer_ofNat
    {number : Nat}
    (small : number < 2 ^ 31) :
    pointer (BitVec.ofNat 32 number) = number := by
  have value : (BitVec.ofNat 32 number).toInt = (number : Int) := by
    rw [BitVec.toInt_eq_toNat_of_lt, BitVec.toNat_ofNat]
    · omega
    · rw [BitVec.toNat_ofNat]
      omega
  rw [pointer, value]
  exact sizeT_natCast (by omega)

end LaneState

/-- A lane, the memory that it would see alone, and what it has touched. -/
structure OwnLane where
  lane : LaneState
  memory : Nat → Word
  touched : List (Access Nat Word)

namespace OwnLane

/-- Execute one instruction on the lane and its own memory. -/
def execute (inst : Instruction) (own : OwnLane) : OwnLane where
  lane := own.lane.executeWith inst own.memory
  memory := applyAll (own.lane.access? inst).toList own.memory
  touched := own.touched ++ (own.lane.access? inst).toList

/-- Execute instructions one after the other. -/
def executeAll (code : List Instruction) (own : OwnLane) : OwnLane :=
  code.foldl (fun own inst => own.execute inst) own

@[simp] theorem executeAll_nil (own : OwnLane) : own.executeAll [] = own :=
  rfl

@[simp] theorem executeAll_cons
    (inst : Instruction)
    (rest : List Instruction)
    (own : OwnLane) :
    own.executeAll (inst :: rest) = (own.execute inst).executeAll rest :=
  rfl

theorem executeAll_append
    (earlier later : List Instruction)
    (own : OwnLane) :
    own.executeAll (earlier ++ later) =
      (own.executeAll earlier).executeAll later :=
  List.foldl_append

/-- Execute a guarded body: it is skipped when the predicate is zero. -/
def executeGuarded
    (predicate : Int)
    (body : List Instruction)
    (own : OwnLane) :
    OwnLane :=
  let tested := own.execute (Benchmarks.cmp predicate 19)
  if tested.lane.predicate then tested else tested.executeAll body

section Instructions

variable {dst src1 src2 predicate register : Int}
variable {body code : List Instruction}

theorem execute_mov
    (immediate : Int)
    (own : OwnLane) :
    own.execute (Benchmarks.mov dst immediate) =
      { own with
        lane := own.lane.write dst (BitVec.ofInt 32 immediate) } := by
  simp [execute, LaneState.executeWith, LaneState.execute,
    LaneState.access?, Benchmarks.mov, applyAll]

theorem execute_add (own : OwnLane) :
    own.execute (Benchmarks.add dst src1 src2) =
      { own with
        lane :=
          own.lane.write dst (own.lane.read src1 + own.lane.read src2) } := by
  simp [execute, LaneState.executeWith, LaneState.execute,
    LaneState.access?, Benchmarks.add, applyAll]

theorem execute_mul (own : OwnLane) :
    own.execute (Benchmarks.mul dst src1 src2) =
      { own with
        lane :=
          own.lane.write dst (own.lane.read src1 * own.lane.read src2) } := by
  simp [execute, LaneState.executeWith, LaneState.execute,
    LaneState.access?, Benchmarks.mul, applyAll]

theorem execute_cmp (own : OwnLane) :
    own.execute (Benchmarks.cmp src1 src2) =
      { own with
        lane :=
          { own.lane with
            predicate := own.lane.read src1 == own.lane.read src2 } } := by
  simp [execute, LaneState.executeWith, LaneState.execute,
    LaneState.access?, Benchmarks.cmp, applyAll]

theorem execute_load
    (isRegister : src1 ≠ -1)
    (own : OwnLane) :
    own.execute (Benchmarks.load dst src1) =
      { lane :=
          own.lane.write dst
            (own.memory (LaneState.pointer (own.lane.read src1)))
        memory := own.memory
        touched :=
          own.touched ++
            [.load (LaneState.pointer (own.lane.read src1))] } := by
  have address :=
    @LaneState.address_eq src1 (Benchmarks.load dst src1) isRegister rfl
      own.lane
  rw [← address]
  rfl

theorem execute_store
    (isRegister : src2 ≠ -1)
    (own : OwnLane) :
    own.execute (Benchmarks.store src1 src2) =
      { lane := own.lane
        memory :=
          Function.update own.memory
            (LaneState.pointer (own.lane.read src2)) (own.lane.read src1)
        touched :=
          own.touched ++
            [.store (LaneState.pointer (own.lane.read src2))
              (own.lane.read src1)] } := by
  have address :=
    @LaneState.address_eq src2 (Benchmarks.store src1 src2) isRegister rfl
      own.lane
  rw [← address]
  rfl

theorem execute_atomicAdd
    (isRegister : src2 ≠ -1)
    (own : OwnLane) :
    own.execute (Benchmarks.atomicAdd src1 src2) =
      { lane := own.lane
        memory :=
          Function.update own.memory
            (LaneState.pointer (own.lane.read src2))
            (own.memory (LaneState.pointer (own.lane.read src2)) +
              own.lane.read src1)
        touched :=
          own.touched ++
            [.add (LaneState.pointer (own.lane.read src2))
              (own.lane.read src1)] } := by
  have address :=
    @LaneState.address_eq src2 (Benchmarks.atomicAdd src1 src2) isRegister
      rfl own.lane
  rw [← address]
  rfl

/-- A body is skipped when the predicate register is zero. -/
theorem executeGuarded_skip
    {own : OwnLane}
    (isZero : own.lane.read predicate = own.lane.read 19) :
    own.executeGuarded predicate body =
      own.execute (Benchmarks.cmp predicate 19) := by
  rw [executeGuarded, execute_cmp, isZero, beq_self_eq_true]
  exact if_pos rfl

/-- A body is executed when the predicate register is not zero. -/
theorem executeGuarded_run
    {own : OwnLane}
    (notZero : own.lane.read predicate ≠ own.lane.read 19) :
    own.executeGuarded predicate body =
      (own.execute (Benchmarks.cmp predicate 19)).executeAll body := by
  rw [executeGuarded, execute_cmp, beq_false_of_ne notZero]
  exact if_neg Bool.false_ne_true

/-- A register that no instruction writes keeps its value. -/
theorem read_executeAll
    (validRegister : RegisterOperand register)
    (spares :
      ∀ inst ∈ code,
        (-1 ≤ inst.dst ∧ inst.dst < 32) ∧ inst.dst ≠ register)
    (own : OwnLane) :
    (own.executeAll code).lane.read register = own.lane.read register := by
  induction code generalizing own with
  | nil => rfl
  | cons inst rest inductionHypothesis =>
      rw [executeAll_cons,
        inductionHypothesis fun other member =>
          spares other (List.mem_cons_of_mem _ member)]
      obtain ⟨inRange, other⟩ := spares inst List.mem_cons_self
      have keeps (value : Word) :=
        LaneState.read_write_of_ne inRange validRegister other value
          own.lane
      unfold execute LaneState.executeWith LaneState.execute
      dsimp only
      split
      · exact keeps _
      · split <;> first | exact keeps _ | rfl

/-- A guarded body writes the registers of the body only. -/
theorem read_executeGuarded
    (validRegister : RegisterOperand register)
    (spares :
      ∀ inst ∈ body,
        (-1 ≤ inst.dst ∧ inst.dst < 32) ∧ inst.dst ≠ register)
    (own : OwnLane) :
    (own.executeGuarded predicate body).lane.read register =
      own.lane.read register := by
  have tested :
      (own.execute (Benchmarks.cmp predicate 19)).lane.read register =
        own.lane.read register := by
    rw [execute_cmp]
    rfl
  by_cases isZero : own.lane.read predicate = own.lane.read 19
  · rw [executeGuarded_skip isZero, tested]
  · rw [executeGuarded_run isZero, read_executeAll validRegister spares,
      tested]

end Instructions

end OwnLane

/-- Apply a function to the lanes of a mask. -/
def onLanes
    (mask : ActiveMask)
    (transform : OwnLane → OwnLane)
    (lanes : List OwnLane) :
    List OwnLane :=
  lanes.mapIdx fun lane own =>
    if mask.getLsbD lane then transform own else own

@[simp] theorem length_onLanes
    (mask : ActiveMask)
    (transform : OwnLane → OwnLane)
    (lanes : List OwnLane) :
    (onLanes mask transform lanes).length = lanes.length := by
  simp [onLanes]

@[simp] theorem getElem?_onLanes
    (mask : ActiveMask)
    (transform : OwnLane → OwnLane)
    (lanes : List OwnLane)
    (lane : Nat) :
    (onLanes mask transform lanes)[lane]? =
      lanes[lane]?.map fun own =>
        if mask.getLsbD lane then transform own else own := by
  simp [onLanes]

/-- Lanes that are transformed alike where a mask is set. -/
theorem onLanes_congr
    {mask : ActiveMask}
    {first second : OwnLane → OwnLane}
    {lanes : List OwnLane}
    (same :
      ∀ lane own,
        lanes[lane]? = some own →
        mask.getLsbD lane = true →
        first own = second own) :
    onLanes mask first lanes = onLanes mask second lanes := by
  apply List.ext_getElem?
  intro lane
  simp only [getElem?_onLanes]
  cases found : lanes[lane]? with
  | none => rfl
  | some own =>
      cases active : mask.getLsbD lane with
      | false => rfl
      | true => simp [same lane own found active]

@[simp] theorem onLanes_id
    (mask : ActiveMask)
    (lanes : List OwnLane) :
    onLanes mask (fun own => own) lanes = lanes := by
  apply List.ext_getElem?
  intro lane
  cases found : lanes[lane]? <;> simp [found]

theorem onLanes_onLanes
    (mask : ActiveMask)
    (first second : OwnLane → OwnLane)
    (lanes : List OwnLane) :
    onLanes mask second (onLanes mask first lanes) =
      onLanes mask (fun own => second (first own)) lanes := by
  apply List.ext_getElem?
  intro lane
  cases active : mask.getLsbD lane <;>
    cases found : lanes[lane]? <;> simp [active, found]

/-- Executing the lanes that do not take a branch decides lane by lane. -/
theorem onLanes_decide
    {lanes : List OwnLane}
    {mask taken : ActiveMask}
    (decides :
      ∀ {lane : Nat} {own : OwnLane},
        lanes[lane]? = some own →
        mask.getLsbD lane = true →
        taken.getLsbD lane = own.lane.predicate)
    (onFalse : OwnLane → OwnLane) :
    onLanes (mask &&& ~~~taken) onFalse lanes =
      onLanes mask
        (fun own => if own.lane.predicate then own else onFalse own)
        lanes := by
  apply List.ext_getElem?
  intro lane
  simp only [getElem?_onLanes]
  cases found : lanes[lane]? with
  | none => rfl
  | some own =>
      simp only [Option.map_some, Option.some.injEq,
        ActiveMask.getLsbD_diff]
      cases active : mask.getLsbD lane with
      | false => simp
      | true =>
          rw [decides found active]
          cases own.lane.predicate <;> simp

/-! ## The machine -/

/-- The lanes with their memories, the current path and the waiting paths. -/
structure OwnPaths where
  lanes : List OwnLane
  current : Path
  pending : List Path

namespace OwnPaths

/-- The path machine without the memories. -/
def paths (own : OwnPaths) : PathState where
  lanes := own.lanes.map OwnLane.lane
  current := own.current
  pending := own.pending

/-- Every lane with one memory of which it has touched nothing. -/
def begin (state : PathState) (memory : Nat → Word) : OwnPaths where
  lanes := state.lanes.map fun lane => ⟨lane, memory, []⟩
  current := state.current
  pending := state.pending

@[simp] theorem paths_begin
    (state : PathState)
    (memory : Nat → Word) :
    (begin state memory).paths = state := by
  simp [begin, paths, Function.comp_def]

/-- Execute one instruction, every active lane on its own memory. -/
def execute (inst : Instruction) (own : OwnPaths) : Option OwnPaths :=
  (own.paths.execute inst).map fun next =>
    { lanes := onLanes own.current.mask (OwnLane.execute inst) own.lanes
      current := next.current
      pending := next.pending }

/-- One instruction other than a barrier, fetched and executed. -/
def Step (kernel : Kernel) (before after : OwnPaths) : Prop :=
  ∃ inst,
    kernel.fetch? before.current.pc = some inst ∧
      inst.opcode ≠ .barrier ∧ before.execute inst = some after

/-- Any number of instructions other than barriers. -/
abbrev Reaches (kernel : Kernel) : OwnPaths → OwnPaths → Prop :=
  Relation.ReflTransGen (Step kernel)

end OwnPaths

/-- An instruction that neither moves lanes between paths nor waits. -/
def Instruction.Straight (inst : Instruction) : Prop :=
  inst.opcode.isControl = false ∧ inst.opcode ≠ .barrier

instance (inst : Instruction) : Decidable inst.Straight :=
  inferInstanceAs (Decidable (_ ∧ _))

/-- Control instructions leave lanes and their memories alone. -/
theorem OwnLane.execute_control
    {inst : Instruction}
    (isControl : inst.opcode.isControl = true)
    (own : OwnLane) :
    own.execute inst = own := by
  obtain ⟨lane, memory, touched⟩ := own
  cases opcode : inst.opcode <;>
    simp [opcode, Opcode.isControl] at isControl <;>
    simp [OwnLane.execute, LaneState.executeWith, LaneState.execute,
      LaneState.access?, opcode, applyAll]

/-- A kernel holds all of its instructions from zero on. -/
theorem Kernel.holds_instructions
    (kernel : Kernel) :
    kernel.Holds 0 kernel.instructions := by
  intro offset inst found
  rwa [Nat.zero_add]

/-- A kernel holds what is left of its instructions from a pc on. -/
theorem Kernel.holds_of_drop
    {kernel : Kernel}
    {pc : Nat}
    {code rest : List Instruction}
    (split : kernel.instructions.drop pc = code ++ rest) :
    kernel.Holds pc code := by
  intro offset inst found
  rw [Kernel.fetch?, ← List.getElem?_drop, split]
  exact
    (List.getElem?_append_left (List.getElem?_eq_some_iff.mp found).1).trans
      found

/-- Code is where its pc says. -/
theorem Kernel.Holds.at
    {kernel : Kernel}
    {pc other : Nat}
    {code : List Instruction}
    (holds : kernel.Holds pc code)
    (same : pc = other) :
    kernel.Holds other code :=
  same ▸ holds

namespace OwnPaths

section Steps

variable {kernel : Kernel}
variable {lanes : List OwnLane}
variable {mask : ActiveMask}
variable {pc : Nat}
variable {pending : List Path}

/-- A straight instruction is executed by the active lanes. -/
theorem step_straight
    {inst : Instruction}
    (fetched : kernel.fetch? pc = some inst)
    (straight : inst.Straight) :
    Step kernel
      ⟨lanes, ⟨mask, pc⟩, pending⟩
      ⟨onLanes mask (OwnLane.execute inst) lanes, ⟨mask, pc + 1⟩,
        pending⟩ := by
  refine ⟨inst, fetched, straight.2, ?_⟩
  have next := Kernel.nextPc_eq (Kernel.fetch?_lt fetched)
  have notControl := straight.1
  cases opcode : inst.opcode <;>
    simp [opcode, Opcode.isControl] at notControl <;>
    simp [execute, paths, PathState.execute, opcode, PathState.goto, next]

/-- A control instruction moves lanes between paths and nothing else. -/
theorem step_control
    {inst : Instruction}
    {next : PathState}
    (fetched : kernel.fetch? pc = some inst)
    (isControl : inst.opcode.isControl = true)
    (executed :
      (paths ⟨lanes, ⟨mask, pc⟩, pending⟩).execute inst = some next) :
    Step kernel
      ⟨lanes, ⟨mask, pc⟩, pending⟩
      ⟨lanes, next.current, next.pending⟩ := by
  refine ⟨inst, fetched, ?_, ?_⟩
  · intro isBarrier
    rw [isBarrier] at isControl
    cases isControl
  · rw [execute, executed, Option.map_some]
    have same :
        OwnLane.execute inst = fun own : OwnLane => own :=
      funext (OwnLane.execute_control isControl)
    rw [same, onLanes_id]

end Steps

/-! ## What a stretch of code does -/

/--
From one pc to another, code applies a function to the active lanes if they
meet a condition, and returns the mask and the waiting paths as they were.
-/
def Does
    (kernel : Kernel)
    (start finish : Nat)
    (requires : OwnLane → Prop)
    (transform : OwnLane → OwnLane) :
    Prop :=
  ∀ (lanes : List OwnLane) (mask : ActiveMask) (pending : List Path),
    PathState.MasksLanes mask (lanes.map OwnLane.lane) →
    (∀ lane own,
      lanes[lane]? = some own → mask.getLsbD lane = true → requires own) →
    Reaches kernel
      ⟨lanes, ⟨mask, start⟩, pending⟩
      ⟨onLanes mask transform lanes, ⟨mask, finish⟩, pending⟩

/-- Masks of lanes do not depend on what the lanes are. -/
theorem masksLanes_onLanes
    {mask other : ActiveMask}
    {lanes : List OwnLane}
    (masks : PathState.MasksLanes mask (lanes.map OwnLane.lane))
    (transform : OwnLane → OwnLane) :
    PathState.MasksLanes mask
      ((onLanes other transform lanes).map OwnLane.lane) where
  nonempty := masks.nonempty
  inRange := fun active => by
    have inside := masks.inRange active
    simpa using inside

namespace Does

variable {kernel : Kernel}
variable {start middle finish : Nat}
variable {requires needed : OwnLane → Prop}
variable {first second transform : OwnLane → OwnLane}

theorem refl : Does kernel start start requires fun own => own := by
  intro lanes mask pending masks meets
  rw [onLanes_id]

theorem trans
    (earlier : Does kernel start middle requires first)
    (later : Does kernel middle finish needed second)
    (ensures : ∀ own, requires own → needed (first own)) :
    Does kernel start finish requires fun own => second (first own) := by
  intro lanes mask pending masks meets
  rw [← onLanes_onLanes]
  refine
    (earlier lanes mask pending masks meets).trans
      (later _ mask pending (masksLanes_onLanes masks first) ?_)
  intro lane own found active
  rw [getElem?_onLanes] at found
  obtain ⟨former, isFormer, rfl⟩ := Option.map_eq_some_iff.mp found
  rw [if_pos active]
  exact ensures former (meets lane former isFormer active)

/-- A condition may be stronger, and the function another one where it holds. -/
theorem weaken
    (does : Does kernel start finish needed first)
    (meets : ∀ own, requires own → needed own)
    (same : ∀ own, requires own → first own = second own) :
    Does kernel start finish requires second := by
  intro lanes mask pending masks holds
  have reaches :=
    does lanes mask pending masks fun lane own found active =>
      meets own (holds lane own found active)
  rwa [onLanes_congr fun lane own found active =>
    same own (holds lane own found active)] at reaches

/-- Straight code is executed lane by lane. -/
theorem straight
    {code : List Instruction}
    (holds : kernel.Holds start code)
    (isStraight : ∀ inst ∈ code, inst.Straight) :
    Does kernel start (start + code.length) requires
      (OwnLane.executeAll code) := by
  have unconditional :
      Does kernel start (start + code.length) (fun _ => True)
        (OwnLane.executeAll code) := by
    induction code generalizing start with
    | nil => exact refl
    | cons inst rest inductionHypothesis =>
        have later :=
          inductionHypothesis holds.tail fun other member =>
            isStraight other (List.mem_cons_of_mem _ member)
        rw [Nat.add_assoc, Nat.add_comm 1] at later
        have now :
            Does kernel start (start + 1) (fun _ => True)
              (OwnLane.execute inst) :=
          fun lanes mask pending masks meets =>
            .single
              (step_straight holds.head
                (isStraight inst List.mem_cons_self))
        exact now.trans later fun _ _ => trivial
  exact unconditional.weaken (fun _ _ => trivial) fun _ _ => rfl

/-- Pieces of code one after the other. -/
theorem sequence
    {ι : Type}
    {items : List ι}
    {code : ι → List Instruction}
    {does : ι → OwnLane → OwnLane}
    (each :
      ∀ item ∈ items,
        ∀ pc,
          kernel.Holds pc (code item) →
          Does kernel pc (pc + (code item).length) (fun _ => True)
            (does item))
    (holds : kernel.Holds start (items.flatMap code)) :
    Does kernel start (start + (items.flatMap code).length) (fun _ => True)
      fun own => items.foldl (fun own item => does item own) own := by
  induction items generalizing start with
  | nil => exact refl
  | cons item rest inductionHypothesis =>
      rw [List.flatMap_cons] at holds ⊢
      have now := each item List.mem_cons_self start holds.left
      have later :=
        inductionHypothesis
          (fun other member => each other (List.mem_cons_of_mem _ member))
          holds.right
      rw [List.length_append, ← Nat.add_assoc]
      exact now.trans later fun _ _ => trivial

/-- A loop that makes a number of turns and is left. -/
theorem turns
    {invariant : Nat → OwnLane → Prop}
    {turn last : OwnLane → OwnLane}
    (goesRound :
      ∀ count, Does kernel start start (invariant (count + 1)) turn)
    (leaves : Does kernel start finish (invariant 0) last)
    (keeps :
      ∀ count own, invariant (count + 1) own → invariant count (turn own))
    (count : Nat) :
    Does kernel start finish (invariant count) fun own =>
      last (turn^[count] own) := by
  induction count with
  | zero => exact leaves
  | succ count inductionHypothesis =>
      exact (goesRound count).trans inductionHypothesis (keeps count)

/-- The taken lanes of a path machine are those whose predicate is set. -/
theorem taken_decides
    {lanes : List OwnLane}
    {mask : ActiveMask}
    {pending : List Path}
    {lane : Nat}
    {own : OwnLane}
    (found : lanes[lane]? = some own)
    (active : mask.getLsbD lane = true) :
    (PathState.taken
        (OwnPaths.paths ⟨lanes, ⟨mask, start⟩, pending⟩)).getLsbD lane =
      own.lane.predicate := by
  refine PathState.taken_decides ?_ active
  simp [OwnPaths.paths, found]

/-- The path machine's step at a branch. -/
theorem step_branch
    {lanes : List OwnLane}
    {mask : ActiveMask}
    {pending : List Path}
    {distance : Int}
    (fetched : kernel.fetch? start = some (Benchmarks.branch distance))
    (exact : (start : Int) + distance = (finish : Int))
    (inRange : finish < 2 ^ 64) :
    Step kernel
      ⟨lanes, ⟨mask, start⟩, pending⟩
      ⟨lanes,
        (PathState.branch
          (OwnPaths.paths ⟨lanes, ⟨mask, start⟩, pending⟩) finish).current,
        (PathState.branch
          (OwnPaths.paths ⟨lanes, ⟨mask, start⟩, pending⟩)
            finish).pending⟩ := by
  refine step_control fetched rfl ?_
  simp [paths, PathState.execute, Benchmarks.branch,
    branchPc_of_add exact inRange]

/-- A branch that no active lane takes, that all take, or that splits them. -/
theorem step_branch_cases
    {lanes : List OwnLane}
    {mask : ActiveMask}
    {pending : List Path}
    {distance : Int}
    (fetched : kernel.fetch? start = some (Benchmarks.branch distance))
    (exact : (start : Int) + distance = (finish : Int))
    (inRange : finish < 2 ^ 64) :
    let taken :=
      PathState.taken (OwnPaths.paths ⟨lanes, ⟨mask, start⟩, pending⟩)
    (taken = 0 ∧
        Step kernel ⟨lanes, ⟨mask, start⟩, pending⟩
          ⟨lanes, ⟨mask, start + 1⟩, pending⟩) ∨
      (taken = mask ∧
          Step kernel ⟨lanes, ⟨mask, start⟩, pending⟩
            ⟨lanes, ⟨mask, finish⟩, pending⟩) ∨
        (taken ≠ mask ∧
          Step kernel ⟨lanes, ⟨mask, start⟩, pending⟩
            ⟨lanes, ⟨taken, finish⟩,
              ⟨mask &&& ~~~taken, start + 1⟩ :: pending⟩) := by
  intro taken
  have step :=
    @step_branch kernel start finish lanes mask pending _ fetched exact
      inRange
  have next := Kernel.nextPc_eq (Kernel.fetch?_lt fetched)
  by_cases none : taken = 0
  · left
    rw [PathState.branch, if_pos none] at step
    simp only [paths, PathState.goto, next] at step
    exact ⟨none, step⟩
  · by_cases all :
        taken =
          (OwnPaths.paths
            ⟨lanes, ⟨mask, start⟩, pending⟩).current.mask
    · right
      left
      rw [PathState.branch, if_neg none, if_pos all] at step
      simp only [paths, PathState.goto] at step
      exact ⟨all, step⟩
    · right
      right
      rw [PathState.branch, if_neg none, if_neg all] at step
      simp only [PathState.diverge] at step
      rw [← next]
      exact ⟨all, step⟩

/-- `SYNC` steps over a path that waits at this very `SYNC`. -/
theorem step_syncToken
    {lanes : List OwnLane}
    {mask resumed : ActiveMask}
    {pending : List Path}
    (fetched : kernel.fetch? start = some Benchmarks.sync) :
    Step kernel
      ⟨lanes, ⟨mask, start⟩, ⟨resumed, start⟩ :: pending⟩
      ⟨lanes, ⟨resumed, start + 1⟩, pending⟩ := by
  have next := Kernel.nextPc_eq (Kernel.fetch?_lt fetched)
  have executed :
      (paths ⟨lanes, ⟨mask, start⟩, ⟨resumed, start⟩ :: pending⟩).execute
          Benchmarks.sync =
        some (paths ⟨lanes, ⟨resumed, start + 1⟩, pending⟩) := by
    simp [PathState.execute, Benchmarks.sync, paths, PathState.sync, next]
  exact step_control fetched rfl executed

/-- `SYNC` resumes a path that waits elsewhere. -/
theorem step_syncDeferred
    {lanes : List OwnLane}
    {mask : ActiveMask}
    {path : Path}
    {pending : List Path}
    (fetched : kernel.fetch? start = some Benchmarks.sync)
    (elsewhere : path.pc ≠ start) :
    Step kernel
      ⟨lanes, ⟨mask, start⟩, path :: pending⟩
      ⟨lanes, path, pending⟩ := by
  have executed :
      (paths ⟨lanes, ⟨mask, start⟩, path :: pending⟩).execute
          Benchmarks.sync =
        some (paths ⟨lanes, path, pending⟩) := by
    simp [PathState.execute, Benchmarks.sync, paths, PathState.sync,
      elsewhere]
  exact step_control fetched rfl executed

/-- A branch that every active lane takes. -/
theorem jumps
    {distance : Int}
    (fetched : kernel.fetch? start = some (Benchmarks.branch distance))
    (exact : (start : Int) + distance = (finish : Int))
    (inRange : finish < 2 ^ 64) :
    Does kernel start finish (fun own => own.lane.predicate = true)
      fun own => own := by
  intro lanes mask pending masks meets
  have step := @step_branch kernel start finish lanes mask pending _ fetched
    exact inRange
  have allTaken :
      PathState.taken
          (OwnPaths.paths ⟨lanes, ⟨mask, start⟩, pending⟩) =
        mask := by
    apply ActiveMask.eq_of_lanes
    intro lane _
    cases active : mask.getLsbD lane with
    | true =>
        have inside := masks.inRange active
        rw [List.length_map] at inside
        have found := List.getElem?_eq_getElem inside
        rw [taken_decides found active, meets lane _ found active]
    | false =>
        rw [← Bool.not_eq_true, PathState.getLsbD_taken]
        rintro ⟨-, taken, -⟩
        exact Bool.false_ne_true (active.symm.trans taken)
  have goesThere :
      PathState.branch
          (OwnPaths.paths ⟨lanes, ⟨mask, start⟩, pending⟩) finish =
        OwnPaths.paths ⟨lanes, ⟨mask, finish⟩, pending⟩ := by
    rw [PathState.branch, allTaken, if_neg masks.nonempty]
    exact if_pos rfl
  rw [goesThere] at step
  rw [onLanes_id]
  exact .single step

/-- A branch that no active lane takes. -/
theorem falls
    {distance : Int}
    (fetched : kernel.fetch? start = some (Benchmarks.branch distance))
    (exact : (start : Int) + distance = (finish : Int))
    (inRange : finish < 2 ^ 64) :
    Does kernel start (start + 1) (fun own => own.lane.predicate = false)
      fun own => own := by
  intro lanes mask pending masks meets
  have step := @step_branch kernel start finish lanes mask pending _ fetched
    exact inRange
  have next := Kernel.nextPc_eq (Kernel.fetch?_lt fetched)
  have noneTaken :
      PathState.taken
          (OwnPaths.paths ⟨lanes, ⟨mask, start⟩, pending⟩) =
        0 := by
    rw [ActiveMask.eq_zero_iff]
    intro lane
    rw [← Bool.not_eq_true]
    intro isTaken
    obtain ⟨-, active, -⟩ := (PathState.getLsbD_taken _ _).mp isTaken
    change mask.getLsbD lane = true at active
    have inside := masks.inRange active
    rw [List.length_map] at inside
    have found := List.getElem?_eq_getElem inside
    rw [taken_decides found active, meets lane _ found active] at isTaken
    cases isTaken
  have fallsThrough :
      PathState.branch
          (OwnPaths.paths ⟨lanes, ⟨mask, start⟩, pending⟩) finish =
        OwnPaths.paths ⟨lanes, ⟨mask, start + 1⟩, pending⟩ := by
    rw [PathState.branch, noneTaken, if_pos rfl, ← next]
    rfl
  rw [fallsThrough] at step
  rw [onLanes_id]
  exact .single step

section Guarded

variable {predicate : Int}
variable {body : List Instruction}
variable {first join : Nat}
variable {lanes tested : List OwnLane}
variable {mask others : ActiveMask}
variable {pending : List Path}

/-- The `SSY` of a guarded body leaves the token that its `SYNC` finds. -/
theorem step_guard
    {distance : Int}
    (fetched : kernel.fetch? start = some (Benchmarks.ssy distance))
    (exact : (start : Int) + distance = (join : Int))
    (joinBound : join < 2 ^ 64) :
    Step kernel
      ⟨lanes, ⟨mask, start⟩, pending⟩
      ⟨lanes, ⟨mask, start + 1⟩, ⟨mask, join⟩ :: pending⟩ := by
  have next := Kernel.nextPc_eq (Kernel.fetch?_lt fetched)
  have executed :
      (paths ⟨lanes, ⟨mask, start⟩, pending⟩).execute
          (Benchmarks.ssy distance) =
        some
          (paths
            ⟨lanes, ⟨mask, start + 1⟩, ⟨mask, join⟩ :: pending⟩) := by
    simp only [PathState.execute, Benchmarks.ssy, paths, PathState.goto, next]
    rw [branchPc_of_add exact joinBound]
  exact step_control fetched rfl executed

/-- The body for the lanes that do not skip it, and the `SYNC` after it. -/
theorem bodyThenSync
    (atBody : kernel.Holds first body)
    (isStraight : ∀ inst ∈ body, inst.Straight)
    (isJoin : first + body.length = join)
    (synced : kernel.fetch? join = some Benchmarks.sync)
    (masks : PathState.MasksLanes others (tested.map OwnLane.lane)) :
    Reaches kernel
      ⟨tested, ⟨others, first⟩, ⟨mask, join⟩ :: pending⟩
      ⟨onLanes others (OwnLane.executeAll body) tested, ⟨mask, join + 1⟩,
        pending⟩ := by
  have does :=
    @straight kernel _ (fun _ => True) _ atBody isStraight tested others
      (⟨mask, join⟩ :: pending) masks fun _ _ _ _ => trivial
  rw [isJoin] at does
  exact does.tail (step_syncToken synced)

/-- From the test on: the lanes that do not skip the body execute it. -/
theorem testThenSync
    (atBranch :
      kernel.fetch? start = some (Benchmarks.branch (body.length + 1)))
    (atBody : kernel.Holds (start + 1) body)
    (nonempty : body ≠ [])
    (isStraight : ∀ inst ∈ body, inst.Straight)
    (isJoin : start + 1 + body.length = join)
    (synced : kernel.fetch? join = some Benchmarks.sync)
    (masks : PathState.MasksLanes mask (tested.map OwnLane.lane)) :
    Reaches kernel
      ⟨tested, ⟨mask, start⟩, ⟨mask, join⟩ :: pending⟩
      ⟨onLanes
          (mask &&& ~~~PathState.taken
            (OwnPaths.paths
              ⟨tested, ⟨mask, start⟩, ⟨mask, join⟩ :: pending⟩))
          (OwnLane.executeAll body) tested,
        ⟨mask, join + 1⟩, pending⟩ := by
  have joinBound : join < 2 ^ 64 :=
    Nat.lt_trans (Kernel.fetch?_lt synced) kernel.size_lt
  have isPart :
      ∀ {lane : Nat},
        (PathState.taken
            (OwnPaths.paths
              ⟨tested, ⟨mask, start⟩, ⟨mask, join⟩ :: pending⟩)).getLsbD
            lane = true →
          mask.getLsbD lane = true :=
    fun isTaken => ((PathState.getLsbD_taken _ _).mp isTaken).2.1
  have branched :=
    @step_branch_cases kernel start join tested mask
      (⟨mask, join⟩ :: pending) _ atBranch (by omega) joinBound
  generalize
    PathState.taken
        (OwnPaths.paths ⟨tested, ⟨mask, start⟩, ⟨mask, join⟩ :: pending⟩) =
      taken at isPart branched ⊢
  rcases branched with ⟨rfl, falls⟩ | ⟨rfl, jumps⟩ | ⟨notAll, splits⟩
  · -- every lane executes the body
    have allLanes : mask &&& ~~~(0 : ActiveMask) = mask := by
      apply ActiveMask.eq_of_lanes
      intro lane _
      rw [ActiveMask.getLsbD_diff]
      simp
    rw [allLanes]
    exact
      .head falls (bodyThenSync atBody isStraight isJoin synced masks)
  · -- every lane skips it
    have noLanes : taken &&& ~~~taken = 0 := by
      rw [ActiveMask.eq_zero_iff]
      intro lane
      rw [ActiveMask.getLsbD_diff]
      simp
    have unchanged :
        onLanes 0 (OwnLane.executeAll body) tested = tested := by
      apply List.ext_getElem?
      intro lane
      cases found : tested[lane]? <;> simp [found]
    rw [noLanes, unchanged]
    exact .head jumps (.single (step_syncToken synced))
  · -- those that skip it wait at the `SYNC`
    have some := ActiveMask.diff_ne_zero isPart notAll
    have positive := List.length_pos_iff.mpr nonempty
    have elsewhere : start + 1 ≠ join := by omega
    refine .head splits (.head (step_syncDeferred synced elsewhere) ?_)
    refine
      bodyThenSync atBody isStraight isJoin synced
        (masks.part some fun active => ?_)
    rw [ActiveMask.getLsbD_diff, Bool.and_eq_true] at active
    exact active.1

/--
A guarded body is executed by the lanes whose predicate register is not zero;
the others wait at the `SYNC`.
-/
theorem guarded
    (holds : kernel.Holds start (Benchmarks.guarded predicate body))
    (nonempty : body ≠ [])
    (isStraight : ∀ inst ∈ body, inst.Straight) :
    Does kernel start (start + (Benchmarks.guarded predicate body).length)
      requires (OwnLane.executeGuarded predicate body) := by
  intro lanes mask pending masks _meets
  have atSsy :
      kernel.Holds start
        (Benchmarks.ssy (body.length + 3) :: Benchmarks.cmp predicate 19 ::
          Benchmarks.branch (body.length + 1) ::
            (body ++ [Benchmarks.sync])) :=
    holds
  have atCmp := atSsy.tail
  have atBranch := atCmp.tail
  have atBody := atBranch.tail
  have synced := atBody.right.head
  generalize isJoin : start + 1 + 1 + 1 + body.length = join at synced
  have joinBound : join < 2 ^ 64 :=
    Nat.lt_trans (Kernel.fetch?_lt synced) kernel.size_lt
  have finish :
      start + (Benchmarks.guarded predicate body).length = join + 1 := by
    simp only [Benchmarks.guarded, List.length_append, List.length_cons,
      List.length_nil]
    omega
  let tested :=
    onLanes mask (OwnLane.execute (Benchmarks.cmp predicate 19)) lanes
  have entered :=
    @step_guard kernel start join lanes mask pending _ atSsy.head
      (by omega) joinBound
  have compared :
      Step kernel
        ⟨lanes, ⟨mask, start + 1⟩, ⟨mask, join⟩ :: pending⟩
        ⟨tested, ⟨mask, start + 1 + 1⟩, ⟨mask, join⟩ :: pending⟩ :=
    step_straight atCmp.head ⟨rfl, Opcode.noConfusion⟩
  have decides :
      ∀ {lane : Nat} {own : OwnLane},
        tested[lane]? = some own →
        mask.getLsbD lane = true →
        (PathState.taken
            (OwnPaths.paths
              ⟨tested, ⟨mask, start + 1 + 1⟩, ⟨mask, join⟩ :: pending⟩)).getLsbD
            lane =
          own.lane.predicate :=
    fun found active => taken_decides found active
  have result :
      onLanes mask (OwnLane.executeGuarded predicate body) lanes =
        onLanes
          (mask &&& ~~~PathState.taken
            (OwnPaths.paths
              ⟨tested, ⟨mask, start + 1 + 1⟩, ⟨mask, join⟩ :: pending⟩))
          (OwnLane.executeAll body) tested := by
    rw [onLanes_decide decides, onLanes_onLanes]
    rfl
  rw [finish, result]
  exact
    .head entered
      (.head compared
        (testThenSync atBranch.head atBody.left nonempty isStraight isJoin
          synced (masksLanes_onLanes masks _)))

end Guarded

end Does

end OwnPaths

end SimSm
