import Mathlib.Logic.Relation
import SimSm.SingleWarp

namespace SimSm

/-!
# Structured code

If-then and if-then-else regions, nested to any depth, compiled with the
`SSY`/`SYNC` pattern.  The compiled code computes, on every active lane, the
denotation of the source, and hands the mask and the SIMT stack back as it
found them.
-/

/-- An arithmetic instruction with valid register operands. -/
abbrev ArithmeticInstruction := { inst : Instruction // inst.Arithmetic }

/-- Structured code. -/
inductive Structured where
  | straight (instructions : List ArithmeticInstruction)
  | seq (first second : Structured)
  | ifThen (src1 src2 : Fin 32) (body : Structured)
  | ifThenElse (src1 src2 register : Fin 32) (onTrue onFalse : Structured)

namespace Structured

/-- `CMP` of two registers. -/
def cmp (src1 src2 : Fin 32) : Instruction :=
  ⟨.cmp, -1, (src1 : Nat), (src2 : Nat), 0⟩

/-- A control instruction with a relative target. -/
def control (opcode : Opcode) (immediate : Int) : Instruction :=
  ⟨opcode, -1, -1, -1, immediate⟩

/-- The instruction sequence of structured code. -/
def compile : Structured → List Instruction
  | .straight instructions => instructions.map Subtype.val
  | .seq first second => first.compile ++ second.compile
  | .ifThen src1 src2 body =>
      [control .ssy (body.compile.length + 3),
        cmp src1 src2,
        control .branch (body.compile.length + 1)] ++
      body.compile ++ [control .sync 0]
  | .ifThenElse src1 src2 register onTrue onFalse =>
      [control .ssy (onFalse.compile.length + onTrue.compile.length + 5),
        cmp src1 src2,
        control .branch (onFalse.compile.length + 3)] ++
      onFalse.compile ++
      [cmp register register,
        control .branch (onTrue.compile.length + 1)] ++
      onTrue.compile ++ [control .sync 0]

/-- The body of every if-then region has an instruction. -/
def WellFormed : Structured → Prop
  | .straight _ => True
  | .seq first second => first.WellFormed ∧ second.WellFormed
  | .ifThen _ _ body => body.WellFormed ∧ body.compile ≠ []
  | .ifThenElse _ _ _ onTrue onFalse => onTrue.WellFormed ∧ onFalse.WellFormed

/-- The meaning of structured code for one lane. -/
def eval : Structured → LaneState → LaneState
  | .straight instructions, lane =>
      instructions.foldl (fun lane inst => lane.execute inst.val) lane
  | .seq first second, lane => second.eval (first.eval lane)
  | .ifThen src1 src2 body, lane =>
      let tested := lane.execute (cmp src1 src2)
      if tested.predicate then tested else body.eval tested
  | .ifThenElse src1 src2 register onTrue onFalse, lane =>
      let tested := lane.execute (cmp src1 src2)
      if tested.predicate then
        onTrue.eval tested
      else
        (onFalse.eval tested).execute (cmp register register)

/-- `CMP` of two registers has valid operands. -/
theorem cmp_arithmetic (src1 src2 : Fin 32) : (cmp src1 src2).Arithmetic := by
  have first := src1.isLt
  have second := src2.isLt
  simp only [Instruction.Arithmetic, cmp, RegisterOperand]
  omega

/-- Comparing a register with itself sets the predicate. -/
theorem cmp_self_predicate
    (register : Fin 32)
    (lane : LaneState) :
    (lane.execute (cmp register register)).predicate = true := by
  simp [LaneState.execute, cmp]

/-- Compiled code is regular. -/
theorem compile_regular
    (program : Structured) :
    ∀ inst ∈ program.compile, inst.Regular := by
  have ofControl
      {opcode : Opcode}
      {immediate : Int}
      (isControl : opcode.isControl = true) :
      (control opcode immediate).Regular :=
    Or.inr isControl
  have ofCmp (src1 src2 : Fin 32) : (cmp src1 src2).Regular :=
    Or.inl (cmp_arithmetic src1 src2)
  induction program with
  | straight instructions =>
      intro inst member
      obtain ⟨arithmetic, _, rfl⟩ := List.mem_map.mp member
      exact Or.inl arithmetic.property
  | seq first second firstHypothesis secondHypothesis =>
      intro inst member
      rcases List.mem_append.mp member with inFirst | inSecond
      · exact firstHypothesis inst inFirst
      · exact secondHypothesis inst inSecond
  | ifThen src1 src2 body bodyHypothesis =>
      intro inst member
      simp only [compile, List.mem_append, List.mem_cons,
        List.not_mem_nil, or_false] at member
      rcases member with ((rfl | rfl | rfl) | inBody) | rfl
      · exact ofControl rfl
      · exact ofCmp src1 src2
      · exact ofControl rfl
      · exact bodyHypothesis inst inBody
      · exact ofControl rfl
  | ifThenElse src1 src2 register onTrue onFalse trueHypothesis falseHypothesis =>
      intro inst member
      simp only [compile, List.mem_append, List.mem_cons,
        List.not_mem_nil, or_false] at member
      rcases member with
        ((((rfl | rfl | rfl) | inFalse) | (rfl | rfl)) | inTrue) | rfl
      · exact ofControl rfl
      · exact ofCmp src1 src2
      · exact ofControl rfl
      · exact falseHypothesis inst inFalse
      · exact ofCmp register register
      · exact ofControl rfl
      · exact trueHypothesis inst inTrue
      · exact ofControl rfl

end Structured

/-! ## Steps of the path machine inside a kernel -/

/-- The kernel holds a piece of code from a pc on. -/
def Kernel.Holds (kernel : Kernel) (pc : Nat) (code : List Instruction) : Prop :=
  ∀ (offset : Nat) (inst : Instruction),
    code[offset]? = some inst →
    kernel.fetch? (pc + offset) = some inst

namespace Kernel.Holds

theorem left
    {kernel : Kernel}
    {pc : Nat}
    {first second : List Instruction}
    (holds : kernel.Holds pc (first ++ second)) :
    kernel.Holds pc first := by
  intro offset inst found
  have inside := (List.getElem?_eq_some_iff.mp found).1
  exact holds _ _ (by rwa [List.getElem?_append_left inside])

theorem right
    {kernel : Kernel}
    {pc : Nat}
    {first second : List Instruction}
    (holds : kernel.Holds pc (first ++ second)) :
    kernel.Holds (pc + first.length) second := by
  intro offset inst found
  rw [Nat.add_assoc]
  apply holds
  rw [List.getElem?_append_right (Nat.le_add_right _ _)]
  simpa using found

theorem head
    {kernel : Kernel}
    {pc : Nat}
    {inst : Instruction}
    {rest : List Instruction}
    (holds : kernel.Holds pc (inst :: rest)) :
    kernel.fetch? pc = some inst :=
  holds 0 inst rfl

theorem tail
    {kernel : Kernel}
    {pc : Nat}
    {inst : Instruction}
    {rest : List Instruction}
    (holds : kernel.Holds pc (inst :: rest)) :
    kernel.Holds (pc + 1) rest :=
  @right kernel pc [inst] rest holds

end Kernel.Holds

namespace PathState

/-- One instruction fetched and executed, without settling. -/
def Step (kernel : Kernel) (before after : PathState) : Prop :=
  ∃ inst,
    kernel.fetch? before.current.pc = some inst ∧
      before.execute inst = some after

/-- Any number of instructions. -/
abbrev Reaches (kernel : Kernel) : PathState → PathState → Prop :=
  Relation.ReflTransGen (Step kernel)

/-- A mask of some of the machine's lanes. -/
structure MasksLanes (mask : ActiveMask) (lanes : List LaneState) : Prop where
  nonempty : mask ≠ 0
  inRange :
    ∀ {lane : Nat},
      mask.getLsbD lane = true →
      lane < lanes.length

section Steps

variable {kernel : Kernel} {lanes : List LaneState} {mask : ActiveMask}
  {pc : Nat} {pending : List Path}

/-- An arithmetic instruction updates the active lanes. -/
theorem step_arithmetic
    {inst : Instruction}
    (fetched : kernel.fetch? pc = some inst)
    (arithmetic : inst.Arithmetic) :
    Step kernel
      ⟨lanes, ⟨mask, pc⟩, pending⟩
      ⟨onMask mask (LaneState.execute inst) lanes, ⟨mask, pc + 1⟩, pending⟩ := by
  refine ⟨inst, fetched, ?_⟩
  have next := Kernel.nextPc_eq (Kernel.fetch?_lt fetched)
  unfold Instruction.Arithmetic at arithmetic
  cases opcode : inst.opcode <;>
    simp only [opcode] at arithmetic <;>
    simp [execute, opcode, goto, next]

/-- `SSY` pushes the active lanes with the region's end. -/
theorem step_ssy
    {immediate : Int}
    {target : Nat}
    (fetched :
      kernel.fetch? pc = some (Structured.control .ssy immediate))
    (exact : (pc : Int) + immediate = (target : Int))
    (inRange : target < 2 ^ 64) :
    Step kernel
      ⟨lanes, ⟨mask, pc⟩, pending⟩
      ⟨lanes, ⟨mask, pc + 1⟩, ⟨mask, target⟩ :: pending⟩ := by
  refine ⟨_, fetched, ?_⟩
  have next := Kernel.nextPc_eq (Kernel.fetch?_lt fetched)
  simp [execute, Structured.control, goto, next,
    branchPc_of_add exact inRange]

/-- `BRANCH` executes the machine's branch. -/
theorem step_branch
    {immediate : Int}
    {target : Nat}
    (fetched :
      kernel.fetch? pc = some (Structured.control .branch immediate))
    (exact : (pc : Int) + immediate = (target : Int))
    (inRange : target < 2 ^ 64) :
    Step kernel
      ⟨lanes, ⟨mask, pc⟩, pending⟩
      (branch ⟨lanes, ⟨mask, pc⟩, pending⟩ target) := by
  refine ⟨_, fetched, ?_⟩
  simp [execute, Structured.control, branchPc_of_add exact inRange]

/-- `SYNC` steps over a path that waits at this very `SYNC`. -/
theorem step_syncToken
    {resumed : ActiveMask}
    (fetched :
      kernel.fetch? pc = some (Structured.control .sync 0)) :
    Step kernel
      ⟨lanes, ⟨mask, pc⟩, ⟨resumed, pc⟩ :: pending⟩
      ⟨lanes, ⟨resumed, pc + 1⟩, pending⟩ := by
  refine ⟨_, fetched, ?_⟩
  have next := Kernel.nextPc_eq (Kernel.fetch?_lt fetched)
  simp [execute, Structured.control, sync, next]

/-- `SYNC` resumes a path that waits elsewhere. -/
theorem step_syncDeferred
    {path : Path}
    (fetched :
      kernel.fetch? pc = some (Structured.control .sync 0))
    (elsewhere : path.pc ≠ pc) :
    Step kernel
      ⟨lanes, ⟨mask, pc⟩, path :: pending⟩
      ⟨lanes, path, pending⟩ := by
  refine ⟨_, fetched, ?_⟩
  simp [execute, Structured.control, sync, elsewhere]

end Steps

/-! ## What a stretch of code computes -/

/--
From one pc to another, code applies a function to the active lanes and returns
the mask and the waiting paths as they were.
-/
def Computes
    (kernel : Kernel)
    (start finish : Nat)
    (transform : LaneState → LaneState) : Prop :=
  ∀ (lanes : List LaneState) (mask : ActiveMask) (pending : List Path),
    MasksLanes mask lanes →
    Reaches kernel
      ⟨lanes, ⟨mask, start⟩, pending⟩
      ⟨onMask mask transform lanes, ⟨mask, finish⟩, pending⟩

theorem onMask_onMask
    (mask : ActiveMask)
    (first second : LaneState → LaneState)
    (lanes : List LaneState) :
    onMask mask second (onMask mask first lanes) =
      onMask mask (fun lane => second (first lane)) lanes := by
  apply List.ext_getElem?
  intro lane
  cases active : mask.getLsbD lane <;>
    cases lookup : lanes[lane]? <;> simp [active, lookup]

/-- Masks of lanes do not depend on the lanes' contents. -/
theorem MasksLanes.onMask
    {mask other : ActiveMask}
    {lanes : List LaneState}
    (masks : MasksLanes mask lanes)
    (transform : LaneState → LaneState) :
    MasksLanes mask (onMask other transform lanes) where
  nonempty := masks.nonempty
  inRange := fun active => by
    rw [length_onMask]
    exact masks.inRange active

/-- A nonempty part of a mask of lanes is one. -/
theorem MasksLanes.part
    {mask part : ActiveMask}
    {lanes : List LaneState}
    (masks : MasksLanes mask lanes)
    (nonempty : part ≠ 0)
    (isPart :
      ∀ {lane : Nat},
        part.getLsbD lane = true → mask.getLsbD lane = true) :
    MasksLanes part lanes where
  nonempty := nonempty
  inRange := fun active => masks.inRange (isPart active)

namespace Computes

variable {kernel : Kernel} {start middle finish : Nat}
  {first second : LaneState → LaneState}

theorem refl : Computes kernel start start fun lane => lane := by
  intro lanes mask pending masks
  rw [onMask_id]

theorem trans
    (earlier : Computes kernel start middle first)
    (later : Computes kernel middle finish second) :
    Computes kernel start finish fun lane => second (first lane) := by
  intro lanes mask pending masks
  rw [← onMask_onMask]
  exact
    (earlier lanes mask pending masks).trans
      (later _ mask pending (masks.onMask first))

/-- One arithmetic instruction. -/
theorem arithmetic
    {inst : Instruction}
    (fetched : kernel.fetch? start = some inst)
    (isArithmetic : inst.Arithmetic) :
    Computes kernel start (start + 1) (LaneState.execute inst) := by
  intro lanes mask pending masks
  exact .single (step_arithmetic fetched isArithmetic)

/-- A comparison that always holds, and the branch after it. -/
theorem jump
    {register : Fin 32}
    {immediate : Int}
    (compared :
      kernel.fetch? start = some (Structured.cmp register register))
    (branched :
      kernel.fetch? (start + 1) =
        some (Structured.control .branch immediate))
    (exact : ((start + 1 : Nat) : Int) + immediate = (finish : Int))
    (inRange : finish < 2 ^ 64) :
    Computes kernel start finish
      (LaneState.execute (Structured.cmp register register)) := by
  intro lanes mask pending masks
  have compare :
      Step kernel
        ⟨lanes, ⟨mask, start⟩, pending⟩
        ⟨onMask mask
            (LaneState.execute (Structured.cmp register register)) lanes,
          ⟨mask, start + 1⟩, pending⟩ :=
    step_arithmetic compared (Structured.cmp_arithmetic register register)
  have branch := @step_branch kernel
    (onMask mask
      (LaneState.execute (Structured.cmp register register)) lanes)
    mask (start + 1) pending immediate finish branched exact inRange
  have allTaken :
      taken
          ⟨onMask mask
              (LaneState.execute (Structured.cmp register register)) lanes,
            ⟨mask, start + 1⟩, pending⟩ =
        mask := by
    apply ActiveMask.eq_of_lanes
    intro lane inMask
    rw [Bool.eq_iff_iff, getLsbD_taken]
    constructor
    · rintro ⟨-, active, -⟩
      exact active
    · intro active
      have inside := masks.inRange active
      refine ⟨inMask, active,
        lanes[lane].execute (Structured.cmp register register), ?_, ?_⟩
      · simp [List.getElem?_eq_getElem inside, active]
      · exact Structured.cmp_self_predicate register _
  refine .tail (.single compare) ?_
  rw [PathState.branch, allTaken, if_neg masks.nonempty, if_pos rfl] at branch
  exact branch

/-- Executing the taken and then the other lanes decides lane by lane. -/
theorem onMask_decide
    {lanes : List LaneState}
    {mask taken : ActiveMask}
    (isPart :
      ∀ {lane : Nat},
        taken.getLsbD lane = true → mask.getLsbD lane = true)
    (decides :
      ∀ {lane : Nat} {laneState : LaneState},
        lanes[lane]? = some laneState →
        mask.getLsbD lane = true →
        taken.getLsbD lane = laneState.predicate)
    (onTrue onFalse : LaneState → LaneState) :
    onMask (mask &&& ~~~taken) onFalse (onMask taken onTrue lanes) =
      onMask mask
        (fun lane =>
          if lane.predicate then onTrue lane else onFalse lane)
        lanes := by
  apply List.ext_getElem?
  intro lane
  simp only [getElem?_onMask, Option.map_map]
  cases lookup : lanes[lane]? with
  | none => rfl
  | some laneState =>
      simp only [Option.map_some, Function.comp_apply, Option.some.injEq]
      cases active : mask.getLsbD lane with
      | false =>
          have notTaken : taken.getLsbD lane = false := by
            by_contra isTaken
            rw [Bool.not_eq_false] at isTaken
            rw [isPart isTaken] at active
            cases active
          simp [active, notTaken]
      | true =>
          have same := decides lookup active
          rw [ActiveMask.getLsbD_diff, same, active]
          cases laneState.predicate <;> simp

/--
The two sides of a branch under a token: the lanes that take the branch and
then the others run to the `SYNC`, which resumes the others once and then
reconverges.
-/
theorem sides
    {join target : Nat}
    {offset : Int}
    {onTrue onFalse : LaneState → LaneState}
    (branched :
      kernel.fetch? start = some (Structured.control .branch offset))
    (toTarget : (start : Int) + offset = (target : Int))
    (targetInside : target ≤ join)
    (synced : kernel.fetch? join = some (Structured.control .sync 0))
    (apart : start + 1 ≠ join)
    (trueSide : Computes kernel target join onTrue)
    (falseSide : Computes kernel (start + 1) join onFalse)
    {lanes : List LaneState}
    {mask : ActiveMask}
    (masks : MasksLanes mask lanes)
    (pending : List Path) :
    Reaches kernel
      ⟨lanes, ⟨mask, start⟩, ⟨mask, join⟩ :: pending⟩
      ⟨onMask mask
          (fun lane => if lane.predicate then onTrue lane else onFalse lane)
          lanes,
        ⟨mask, join + 1⟩, pending⟩ := by
  have joinBound : join < 2 ^ 64 :=
    Nat.lt_trans (Kernel.fetch?_lt synced) kernel.size_lt
  have branch := @step_branch kernel lanes mask start
    (⟨mask, join⟩ :: pending) offset target branched toTarget
    (Nat.lt_of_le_of_lt targetInside joinBound)
  have next := Kernel.nextPc_eq (Kernel.fetch?_lt branched)
  -- The last `SYNC` finds the token on top in all three cases.
  have reconverge
      (finalLanes : List LaneState)
      (arriving : ActiveMask) :
      Reaches kernel
        ⟨finalLanes, ⟨arriving, join⟩, ⟨mask, join⟩ :: pending⟩
        ⟨finalLanes, ⟨mask, join + 1⟩, pending⟩ :=
    .single (step_syncToken synced)
  have isPart :
      ∀ {lane : Nat},
        (taken ⟨lanes, ⟨mask, start⟩, ⟨mask, join⟩ :: pending⟩).getLsbD
            lane = true →
          mask.getLsbD lane = true :=
    fun isTaken => ((getLsbD_taken _ _).mp isTaken).2.1
  refine .head branch ?_
  have decides :
      ∀ {lane : Nat} {laneState : LaneState},
        lanes[lane]? = some laneState →
        mask.getLsbD lane = true →
        (taken ⟨lanes, ⟨mask, start⟩, ⟨mask, join⟩ :: pending⟩).getLsbD
            lane =
          laneState.predicate :=
    fun lookup active => taken_decides lookup active
  rw [← onMask_decide isPart decides]
  unfold PathState.branch PathState.diverge
  simp only [next]
  generalize taken ⟨lanes, ⟨mask, start⟩, ⟨mask, join⟩ :: pending⟩ =
    takenLanes at isPart ⊢
  by_cases none : takenLanes = 0
  · subst none
    have allLanes : mask &&& ~~~(0 : ActiveMask) = mask := by
      apply ActiveMask.eq_of_lanes
      intro lane _
      rw [ActiveMask.getLsbD_diff]
      simp
    have noLanes : onMask 0 onTrue lanes = lanes := by
      apply List.ext_getElem?
      intro lane
      cases lookup : lanes[lane]? <;> simp [lookup]
    rw [if_pos rfl, allLanes, noLanes]
    exact (falseSide lanes mask _ masks).trans (reconverge _ mask)
  · rw [if_neg none]
    by_cases all : takenLanes = mask
    · subst all
      have noLanes :
          onMask (takenLanes &&& ~~~takenLanes) onFalse
              (onMask takenLanes onTrue lanes) =
            onMask takenLanes onTrue lanes := by
        apply List.ext_getElem?
        intro lane
        cases lookup : lanes[lane]? <;> simp [lookup]
      rw [if_pos rfl, noLanes]
      exact (trueSide lanes takenLanes _ masks).trans
        (reconverge _ takenLanes)
    · rw [if_neg all]
      have others := ActiveMask.diff_ne_zero isPart all
      have takenMasks := masks.part none isPart
      have otherMasks : MasksLanes (mask &&& ~~~takenLanes) lanes :=
        masks.part others fun active => by
          rw [ActiveMask.getLsbD_diff, Bool.and_eq_true] at active
          exact active.1
      have resume :
          Reaches kernel
            ⟨onMask takenLanes onTrue lanes, ⟨takenLanes, join⟩,
              ⟨mask &&& ~~~takenLanes, start + 1⟩ ::
                ⟨mask, join⟩ :: pending⟩
            ⟨onMask takenLanes onTrue lanes,
              ⟨mask &&& ~~~takenLanes, start + 1⟩,
              ⟨mask, join⟩ :: pending⟩ :=
        .single (step_syncDeferred synced apart)
      exact
        (((trueSide lanes takenLanes _ takenMasks).trans resume).trans
          (falseSide _ _ _ (otherMasks.onMask onTrue))).trans
          (reconverge _ _)

/-- A region from its `SSY` past its `SYNC`. -/
theorem region
    {join target : Nat}
    {test : Instruction}
    {regionEnd offset : Int}
    {onTrue onFalse : LaneState → LaneState}
    (entered :
      kernel.fetch? start = some (Structured.control .ssy regionEnd))
    (toJoin : (start : Int) + regionEnd = (join : Int))
    (compared : kernel.fetch? (start + 1) = some test)
    (isArithmetic : test.Arithmetic)
    (branched :
      kernel.fetch? (start + 1 + 1) =
        some (Structured.control .branch offset))
    (toTarget : ((start + 1 + 1 : Nat) : Int) + offset = (target : Int))
    (targetInside : target ≤ join)
    (synced : kernel.fetch? join = some (Structured.control .sync 0))
    (apart : start + 1 + 1 + 1 ≠ join)
    (trueSide : Computes kernel target join onTrue)
    (falseSide : Computes kernel (start + 1 + 1 + 1) join onFalse) :
    Computes kernel start (join + 1) fun lane =>
      if (lane.execute test).predicate then
        onTrue (lane.execute test)
      else
        onFalse (lane.execute test) := by
  intro lanes mask pending masks
  have joinBound : join < 2 ^ 64 :=
    Nat.lt_trans (Kernel.fetch?_lt synced) kernel.size_lt
  have tested :=
    @MasksLanes.onMask mask mask lanes masks (LaneState.execute test)
  rw [← onMask_onMask mask (LaneState.execute test) fun lane =>
    if lane.predicate then onTrue lane else onFalse lane]
  exact
    .head (step_ssy entered toJoin joinBound)
      (.head (step_arithmetic compared isArithmetic)
        (sides branched toTarget targetInside synced apart trueSide falseSide
          tested pending))

end Computes

end PathState

namespace Structured

open PathState

/-- Straight-line code computes its instructions one after the other. -/
theorem computes_straight
    {kernel : Kernel}
    {start : Nat}
    {instructions : List ArithmeticInstruction}
    (holds : kernel.Holds start (instructions.map Subtype.val)) :
    Computes kernel start (start + instructions.length)
      (Structured.straight instructions).eval := by
  induction instructions generalizing start with
  | nil => exact Computes.refl
  | cons inst rest inductionHypothesis =>
      have later := inductionHypothesis holds.tail
      rw [Nat.add_assoc, Nat.add_comm 1] at later
      exact (Computes.arithmetic holds.head inst.property).trans later

/-- An if-then region computes its test and then its body where it fails. -/
theorem computes_ifThen
    {kernel : Kernel}
    {start : Nat}
    {src1 src2 : Fin 32}
    {body : Structured}
    (nonempty : body.compile ≠ [])
    (holds : kernel.Holds start (ifThen src1 src2 body).compile)
    (bodyComputes :
      kernel.Holds (start + 1 + 1 + 1) body.compile →
      Computes kernel (start + 1 + 1 + 1)
        (start + 1 + 1 + 1 + body.compile.length) body.eval) :
    Computes kernel start
      (start + (ifThen src1 src2 body).compile.length)
      (ifThen src1 src2 body).eval := by
  have atSsy :
      kernel.Holds start
        (control .ssy (body.compile.length + 3) :: cmp src1 src2 ::
          control .branch (body.compile.length + 1) ::
          (body.compile ++ [control .sync 0])) :=
    holds
  have atCmp := atSsy.tail
  have atBranch := atCmp.tail
  have atBody := atBranch.tail
  have positive := List.length_pos_iff.mpr nonempty
  have region :=
    Computes.region atSsy.head (by push_cast; omega) atCmp.head
      (cmp_arithmetic src1 src2) atBranch.head (by push_cast; omega)
      (Nat.le_refl _) atBody.right.head (by omega) Computes.refl
      (bodyComputes atBody.left)
  have finish :
      start + (ifThen src1 src2 body).compile.length =
        start + 1 + 1 + 1 + body.compile.length + 1 := by
    simp only [compile, List.length_append, List.length_cons,
      List.length_nil]
    omega
  rw [finish]
  exact region

/-- An if-then-else region computes its test and then one of its sides. -/
theorem computes_ifThenElse
    {kernel : Kernel}
    {start : Nat}
    {src1 src2 register : Fin 32}
    {onTrue onFalse : Structured}
    (holds :
      kernel.Holds start
        (ifThenElse src1 src2 register onTrue onFalse).compile)
    (trueComputes :
      ∀ {pc : Nat},
        kernel.Holds pc onTrue.compile →
        Computes kernel pc (pc + onTrue.compile.length) onTrue.eval)
    (falseComputes :
      ∀ {pc : Nat},
        kernel.Holds pc onFalse.compile →
        Computes kernel pc (pc + onFalse.compile.length) onFalse.eval) :
    Computes kernel start
      (start + (ifThenElse src1 src2 register onTrue onFalse).compile.length)
      (ifThenElse src1 src2 register onTrue onFalse).eval := by
  have atSsy :
      kernel.Holds start
        (control .ssy
            (onFalse.compile.length + onTrue.compile.length + 5) ::
          cmp src1 src2 ::
          control .branch (onFalse.compile.length + 3) ::
          (onFalse.compile ++
            (cmp register register ::
              control .branch (onTrue.compile.length + 1) ::
              (onTrue.compile ++ [control .sync 0])))) := by
    have shape := holds
    simp only [compile, List.append_assoc, List.cons_append,
      List.nil_append] at shape
    exact shape
  have atCmp := atSsy.tail
  have atBranch := atCmp.tail
  have atFalse := atBranch.tail
  have atEndCmp := atFalse.right
  have atJump := atEndCmp.tail
  have atTrue := atJump.tail
  have joinBound :=
    Nat.lt_trans (Kernel.fetch?_lt atTrue.right.head) kernel.size_lt
  have falseSide :=
    (falseComputes atFalse.left).trans
      (Computes.jump atEndCmp.head atJump.head (by push_cast; omega)
        joinBound)
  have region :=
    Computes.region atSsy.head (by push_cast; omega) atCmp.head
      (cmp_arithmetic src1 src2) atBranch.head (by push_cast; omega)
      (Nat.le_add_right _ _) atTrue.right.head (by omega)
      (trueComputes atTrue.left) falseSide
  have finish :
      start +
          (ifThenElse src1 src2 register onTrue onFalse).compile.length =
        start + 1 + 1 + 1 + onFalse.compile.length + 1 + 1 +
          onTrue.compile.length + 1 := by
    simp only [compile, List.length_append, List.length_cons,
      List.length_nil]
    omega
  rw [finish]
  exact region

/-- Compiled code computes the meaning of its source. -/
theorem computes
    {kernel : Kernel}
    {start : Nat}
    {program : Structured}
    (wellFormed : program.WellFormed)
    (holds : kernel.Holds start program.compile) :
    Computes kernel start (start + program.compile.length) program.eval := by
  induction program generalizing start with
  | straight instructions =>
      have straight := computes_straight holds
      rw [← @List.length_map _ _ instructions Subtype.val] at straight
      exact straight
  | seq first second firstHypothesis secondHypothesis =>
      obtain ⟨firstFormed, secondFormed⟩ := wellFormed
      have earlier := firstHypothesis firstFormed holds.left
      have later := secondHypothesis secondFormed holds.right
      rw [Nat.add_assoc, ← List.length_append] at later
      exact earlier.trans later
  | ifThen src1 src2 body bodyHypothesis =>
      exact computes_ifThen wellFormed.2 holds
        (bodyHypothesis wellFormed.1)
  | ifThenElse src1 src2 register onTrue onFalse trueHypothesis falseHypothesis =>
      exact computes_ifThenElse holds (trueHypothesis wellFormed.1)
        (falseHypothesis wellFormed.2)

end Structured

namespace PathRun

/-- A run to the end of the kernel with nothing waiting completes there. -/
theorem steps_of_reaches
    {kernel : Kernel}
    {before after : PathState}
    (reaches : PathState.Reaches kernel before after)
    (atEnd : after.current.pc = kernel.size)
    (noneWaits : after.pending = []) :
    ∃ cycles, steps kernel cycles ⟨before, false⟩ = some ⟨after, true⟩ := by
  induction reaches using Relation.ReflTransGen.head_induction_on with
  | refl =>
      have outside : kernel.fetch? after.current.pc = none := by
        rw [Kernel.fetch?_eq_none_iff, atEnd]
      exact ⟨1, by simp [steps, step, outside]⟩
  | head first rest inductionHypothesis =>
      rename_i earlier later
      obtain ⟨inst, fetched, executed⟩ := first
      by_cases inside : later.current.pc < kernel.size
      · obtain ⟨cycles, stepped⟩ := inductionHypothesis
        refine ⟨cycles + 1, ?_⟩
        have notOutside := Nat.not_le.mpr inside
        simpa [steps, step, fetched, executed, PathState.settle,
          PathState.ended, notOutside] using stepped
      · -- Nothing is fetched past the end, so the run stops here.
        have outside := Nat.not_lt.mp inside
        have stopped : later = after := by
          rcases Relation.ReflTransGen.cases_head rest with
            same | ⟨_, ⟨_, again, _⟩, _⟩
          · exact same
          · rw [Kernel.fetch?_eq_none_iff.mpr outside] at again
            cases again
        subst stopped
        refine ⟨1, ?_⟩
        simp [steps, step, fetched, executed, PathState.settle,
          PathState.ended, outside, noneWaits]

end PathRun

namespace Structured

open PathState

/-- Compiled code takes any fresh warp to completion with its meaning. -/
theorem endsIn
    {program : Structured}
    (wellFormed : program.WellFormed)
    {kernel : Kernel}
    (compiled : kernel.instructions = program.compile)
    {warp : Warp}
    (fresh : warp.Fresh)
    {sm : SM Scheduler}
    (hosts : sm.Hosts warp)
    (memory : MemorySystem) :
    ∃ final,
      SM.EndsIn kernel sm memory final ∧
        final.simtStack = [] ∧
        final.activeMask = warp.activeMask ∧
        final.lanes = warp.lanes.map program.eval := by
  have lanesBound : warp.lanes.length ≤ 32 := by
    simpa [Warp.lanes] using fresh.lanes
  have lanesPositive : 1 ≤ warp.lanes.length := by
    simpa [Warp.lanes] using fresh.nonempty
  have masks :
      MasksLanes (ActiveMask.full warp.lanes.length) warp.lanes := by
    constructor
    · intro empty
      have noLane := ActiveMask.eq_zero_iff.mp empty 0
      rw [Bool.eq_false_iff] at noLane
      exact noLane
        ((ActiveMask.getLsbD_full_lanes lanesBound 0).mpr lanesPositive)
    · intro lane active
      exact (ActiveMask.getLsbD_full_lanes lanesBound lane).mp active
  have holds : kernel.Holds 0 program.compile := by
    intro offset inst found
    rw [Nat.zero_add, Kernel.fetch?, compiled]
    exact found
  have reaches := computes wellFormed holds warp.lanes _ [] masks
  have size : kernel.size = 0 + program.compile.length := by
    rw [Kernel.size, compiled, Nat.zero_add]
  obtain ⟨cycles, stepped⟩ :=
    PathRun.steps_of_reaches reaches size.symm rfl
  have regular : kernel.Regular := by
    intro inst member
    rw [compiled] at member
    exact compile_regular program inst member
  obtain ⟨after, final, ticked, runs⟩ :=
    (fresh.runs hosts).ticks regular stepped memory
  have stack := congrArg PathState.pending runs.paths
  have mask := congrArg (fun paths => paths.current.mask) runs.paths
  have lanes := congrArg PathState.lanes runs.paths
  refine
    ⟨final, ⟨cycles, after, ticked, runs.hosts, runs.state⟩, ?_, ?_, ?_⟩
  · exact List.map_eq_nil_iff.mp stack
  · rw [fresh.mask, ← @List.length_map _ _ warp.threads Thread.lane]
    exact mask
  · refine lanes.trans ?_
    apply List.ext_getElem?
    intro lane
    rw [getElem?_onMask, List.getElem?_map]
    cases lookup : warp.lanes[lane]? with
    | none => rfl
    | some laneState =>
        have inside := (List.getElem?_eq_some_iff.mp lookup).1
        have active := (ActiveMask.getLsbD_full_lanes lanesBound lane).mpr inside
        simp only [Option.map_some, active, if_true]

/--
Structured code on a warp refines its execution by each lane alone: the warp
completes with an empty stack and its initial mask, and every lane ends as it
does in a warp of its own.
-/
theorem warp_refines_lanes
    (program : Structured)
    (wellFormed : program.WellFormed)
    (kernel : Kernel)
    (compiled : kernel.instructions = program.compile)
    (warp : Warp)
    (fresh : warp.Fresh)
    (sm : SM Scheduler)
    (hosts : sm.Hosts warp)
    (memory : MemorySystem) :
    ∃ final,
      SM.EndsIn kernel sm memory final ∧
        final.simtStack = [] ∧
        final.activeMask = warp.activeMask ∧
        ∀ (lane : Nat) (thread : Thread),
          warp.threads[lane]? = some thread →
          ∀ (solo : Warp) (soloSm : SM Scheduler) (soloMemory : MemorySystem),
            solo.Fresh →
            solo.lanes = [thread.lane] →
            soloSm.Hosts solo →
            ∃ soloFinal,
              SM.EndsIn kernel soloSm soloMemory soloFinal ∧
                soloFinal.lanes.length = 1 ∧
                final.lanes[lane]? = soloFinal.lanes[0]? := by
  obtain ⟨final, ends, stack, mask, lanes⟩ :=
    endsIn wellFormed compiled fresh hosts memory
  refine ⟨final, ends, stack, mask, ?_⟩
  intro lane thread found solo soloSm soloMemory soloFresh soloLane soloHosts
  obtain ⟨soloFinal, soloEnds, -, -, soloLanes⟩ :=
    endsIn wellFormed compiled soloFresh soloHosts soloMemory
  refine ⟨soloFinal, soloEnds, ?_, ?_⟩
  · simp [soloLanes, soloLane]
  · have here : warp.lanes[lane]? = some thread.lane := by
      simp [Warp.lanes, found]
    rw [lanes, soloLanes, soloLane, List.getElem?_map, here]
    rfl

/-- A nested region: lanes with equal registers 0 and 1 skip the inner one. -/
def nested : Structured :=
  .ifThen 0 1
    (.seq (.straight [⟨⟨.add, 2, 2, 0, 0⟩, by decide⟩])
      (.ifThenElse 0 2 0
        (.straight [⟨⟨.mov, 3, -1, -1, 7⟩, by decide⟩])
        (.straight [⟨⟨.mov, 3, -1, -1, 9⟩, by decide⟩])))

/-- The kernel of the nested region. -/
def nestedKernel : Kernel where
  instructions := nested.compile
  lengthFits := by decide

/-- Three lanes that take the three ways through the nested region. -/
def nestedThreads : List Thread :=
  [Thread.new 0 0 0 0 0, (Thread.new 1 0 1 0 1).seed 0 5,
    ((Thread.new 2 0 2 0 2).seed 0 5).seed 2 1]

/-- The nested region runs to completion on three diverging lanes. -/
theorem warp_refines_lanes_nested :
    ∃ final,
      SM.EndsIn nestedKernel
          (.hosting (Warp.ofThreads 0 nestedThreads) .greedy)
          (.minimal 1) final ∧
        final.simtStack = [] ∧
        final.activeMask = 7 := by
  obtain ⟨final, ends, stack, mask, -⟩ :=
    warp_refines_lanes nested ⟨⟨trivial, trivial, trivial⟩, by decide⟩
      nestedKernel rfl (Warp.ofThreads 0 nestedThreads)
      (Warp.fresh_ofThreads 0 (by decide) (by decide)) _
      (@SM.hosts_hosting _ .greedy trivial) (.minimal 1)
  exact ⟨final, ends, stack, mask⟩

end Structured

end SimSm
