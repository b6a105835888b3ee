import Mathlib.Logic.Relation
import Mathlib.Tactic.IntervalCases
import SimSm.Execution

namespace SimSm

/-!
# Reconvergence of SSY regions

The SIMT stack mixes reconvergence tokens pushed by `SSY` with paths deferred
by divergent branches.  A run of the executor is instrumented here with the
origin of every stack entry, so that it can be said which of the two kinds a
`SYNC` pops.

`SYNC` tells the kinds apart by comparing the entry's target with its own pc.
The comparison is right in every run in which no branch defers a path that
starts at a `SYNC`.
-/

open InstructionExecutor

namespace Reconvergence

/-- Who pushed a stack entry: the warp when its `SSY` or `BRANCH` executed. -/
inductive Origin where
  | ssy (pushedAt : Warp)
  | deferred (pushedAt : Warp)

/-- The origins of the stack entries after one instruction. -/
def nextOrigins
    (inst : Instruction)
    (before after : Warp)
    (origins : List Origin) :
    List Origin :=
  match inst.opcode with
  | .ssy => .ssy before :: origins
  | .branch =>
      if after.simtStack.length = before.simtStack.length then
        origins
      else
        .deferred before :: origins
  | .sync => origins.tail
  | _ => origins

/-- A warp with the origins of its stack entries. -/
structure Traced where
  warp : Warp
  origins : List Origin

/-- One instruction, executed against any memory system. -/
def Step (kernel : Kernel) (before after : Traced) : Prop :=
  ∃ inst result memory finalMemory,
    kernel.fetch? before.warp.warpPc = some inst ∧
      execute inst (before.warp, memory) =
        .ok result (after.warp, finalMemory) ∧
      after.origins =
        nextOrigins inst before.warp after.warp before.origins

/-- A warp from which every run starts: lanes, and an empty SIMT stack. -/
structure Launched (warp : Warp) : Prop where
  nonempty : 1 ≤ warp.threads.length
  lanes : warp.threads.length ≤ 32
  stack : warp.simtStack = []

/-- Every `SSY` of the kernel targets a `SYNC`. -/
def SsyTargetsSync (kernel : Kernel) : Prop :=
  ∀ {pc : Nat} {inst : Instruction},
    kernel.fetch? pc = some inst →
    inst.opcode = .ssy →
    ∃ target,
      kernel.fetch? (branchPc pc inst.immediate) = some target ∧
        target.opcode = .sync

/--
A step that advances past a `SYNC` pops a token pushed by an `SSY`, restores
the mask that was active there, and uncovers the stack that was there, so no
path deferred inside the region is left.
-/
def Reconverges (kernel : Kernel) (before after : Traced) : Prop :=
  ∀ {inst : Instruction},
    kernel.fetch? before.warp.warpPc = some inst →
    inst.opcode = .sync →
    after.warp.warpPc = before.warp.warpPc + 1 →
    ∃ pushedAt rest,
      before.origins = .ssy pushedAt :: rest ∧
        after.warp.activeMask = pushedAt.activeMask ∧
        after.warp.simtStack = pushedAt.simtStack

/-- The warp is about to execute a branch that some but not all lanes take. -/
def Diverges (kernel : Kernel) (warp : Warp) : Prop :=
  ∃ inst taken,
    kernel.fetch? warp.warpPc = some inst ∧
      inst.opcode = .branch ∧
      TakenLanes warp taken ∧
      taken ≠ 0 ∧ taken ≠ warp.activeMask

/-- The instruction that a fall-through reaches is a `SYNC`. -/
def FallsIntoSync (kernel : Kernel) (warp : Warp) : Prop :=
  ∃ inst,
    kernel.fetch? (warp.warpPc + 1) = some inst ∧ inst.opcode = .sync

/-- No branch diverges whose deferred path starts at a `SYNC`. -/
def NoSyncDeferred (kernel : Kernel) (state : Traced) : Prop :=
  ¬ (Diverges kernel state.warp ∧ FallsIntoSync kernel state.warp)

/-- A step from a state that meets `NoSyncDeferred`. -/
def GuardedStep (kernel : Kernel) (before after : Traced) : Prop :=
  NoSyncDeferred kernel before ∧ Step kernel before after

/-- The origins explain the stack, entry by entry. -/
def Explains (kernel : Kernel) : List SIMTStackEntry → List Origin → Prop
  | [], [] => True
  | entry :: entries, .ssy pushedAt :: origins =>
      entry.activeMask = pushedAt.activeMask ∧
        pushedAt.simtStack = entries ∧
        Explains kernel entries origins
  | entry :: entries, .deferred pushedAt :: origins =>
      entry.targetPc = pushedAt.warpPc + 1 ∧
        Diverges kernel pushedAt ∧
        ¬ FallsIntoSync kernel pushedAt ∧
        Explains kernel entries origins
  | _, _ => False

/-- Two instructions fetched from one pc are the same. -/
theorem fetch_opcode
    {kernel : Kernel}
    {pc : Nat}
    {first second : Instruction}
    (firstFetched : kernel.fetch? pc = some first)
    (secondFetched : kernel.fetch? pc = some second) :
    first = second :=
  Option.some.inj (firstFetched.symm.trans secondFetched)

/-- An instruction other than `SSY`, `BRANCH` and `SYNC` keeps all origins. -/
theorem nextOrigins_straight
    {inst : Instruction}
    {before after : Warp}
    {origins : List Origin}
    (straight :
      (threadBody? inst).isSome ∨ IsMemory inst ∨ inst.opcode = .barrier) :
    nextOrigins inst before after origins = origins := by
  unfold nextOrigins
  rcases straight with body | memory | barrier
  · obtain ⟨body, shape⟩ := Option.isSome_iff_exists.mp body
    rcases threadBody?_opcode shape with
      isOp | isOp | isOp | isOp | isOp <;> rw [isOp]
  · rcases memory with isOp | isOp | isOp <;> rw [isOp]
  · rw [barrier]

/-- A branch that keeps the stack keeps all origins. -/
theorem nextOrigins_uniform
    {inst : Instruction}
    {before after : Warp}
    {origins : List Origin}
    (opcode : inst.opcode = .branch)
    (stack : after.simtStack = before.simtStack) :
    nextOrigins inst before after origins = origins := by
  simp [nextOrigins, opcode, stack]

/-- Guarded steps keep the origins an explanation of the stack. -/
theorem GuardedStep.explains
    {kernel : Kernel}
    {before after : Traced}
    (step : GuardedStep kernel before after)
    (explained : Explains kernel before.warp.simtStack before.origins) :
    Explains kernel after.warp.simtStack after.origins := by
  obtain ⟨guarded, inst, result, memory, finalMemory, fetched, ran, origins⟩ :=
    step
  have inside := Kernel.fetch?_lt fetched
  rw [origins]
  cases (execute_ok ran).control with
  | fallThrough straight pc mask stack =>
      have kept := stack
      dsimp only at kept
      rw [kept, nextOrigins_straight (straight.imp_right Or.inl)]
      exact explained
  | barrier opcode convergent pc mask stack =>
      have kept := stack
      dsimp only at kept
      rw [kept, nextOrigins_straight (Or.inr (Or.inr opcode))]
      exact explained
  | branchNone opcode taken pc mask stack =>
      have kept := stack
      dsimp only at kept
      rw [nextOrigins_uniform opcode kept, kept]
      exact explained
  | branchAll opcode some taken pc mask stack =>
      have kept := stack
      dsimp only at kept
      rw [nextOrigins_uniform opcode kept, kept]
      exact explained
  | diverge opcode taken some proper pc stack =>
      dsimp only at taken some proper stack
      have diverges : Diverges kernel before.warp :=
        ⟨inst, after.warp.activeMask, fetched, opcode, taken, some, proper⟩
      have pushed :
          nextOrigins inst before.warp after.warp before.origins =
            .deferred before.warp :: before.origins := by
        simp [nextOrigins, opcode, stack]
      rw [pushed, stack]
      exact ⟨Kernel.nextPc_eq inside, diverges,
        fun falls => guarded ⟨diverges, falls⟩, explained⟩
  | ssy opcode pc mask stack =>
      dsimp only at stack
      have pushed :
          nextOrigins inst before.warp after.warp before.origins =
            .ssy before.warp :: before.origins := by
        simp [nextOrigins, opcode]
      rw [pushed, stack]
      exact ⟨rfl, rfl, explained⟩
  | syncToken opcode entry popped target pc mask
  | syncDeferred opcode entry popped target pc mask =>
      dsimp only at popped
      have dropped :
          nextOrigins inst before.warp after.warp before.origins =
            before.origins.tail := by
        simp [nextOrigins, opcode]
      rw [dropped]
      rw [popped] at explained
      cases originsShape : before.origins with
      | nil =>
          rw [originsShape] at explained
          exact explained.elim
      | cons origin rest =>
          rw [originsShape] at explained
          cases origin with
          | ssy pushedAt => exact explained.2.2
          | deferred pushedAt => exact explained.2.2.2

/-- In every guarded run the origins explain the stack. -/
theorem explains_of_run
    {kernel : Kernel}
    {initial : Warp}
    (launched : Launched initial)
    {state : Traced}
    (run : Relation.ReflTransGen (GuardedStep kernel) ⟨initial, []⟩ state) :
    Explains kernel state.warp.simtStack state.origins := by
  induction run with
  | refl =>
      simp [launched.stack, Explains]
  | tail _ step inductionHypothesis =>
      exact step.explains inductionHypothesis

/-- With explained origins, a `SYNC` that advances pops a token. -/
theorem Step.reconverges
    {kernel : Kernel}
    {before after : Traced}
    (step : Step kernel before after)
    (explained : Explains kernel before.warp.simtStack before.origins) :
    Reconverges kernel before after := by
  intro fetchedInst fetchedHere opcode advanced
  obtain ⟨inst, result, memory, finalMemory, fetched, ran, -⟩ := step
  have sameInst := fetch_opcode fetchedHere fetched
  subst sameInst
  -- Both branches of `SYNC` pop the same entry and restore its mask.
  have popped :
      ∃ entry,
        before.warp.simtStack = entry :: after.warp.simtStack ∧
          after.warp.activeMask = entry.activeMask ∧
          (entry.targetPc = before.warp.warpPc ∨
            after.warp.warpPc = entry.targetPc) := by
    cases (execute_ok ran).control with
    | fallThrough straight pc mask stack =>
        rcases straight with body | memory
        · obtain ⟨body, shape⟩ := Option.isSome_iff_exists.mp body
          rcases threadBody?_opcode shape with
            isOp | isOp | isOp | isOp | isOp <;> simp [isOp] at opcode
        · rcases memory with isOp | isOp | isOp <;> simp [isOp] at opcode
    | barrier isOp => simp [isOp] at opcode
    | branchNone isOp => simp [isOp] at opcode
    | branchAll isOp => simp [isOp] at opcode
    | diverge isOp => simp [isOp] at opcode
    | ssy isOp => simp [isOp] at opcode
    | syncToken _ entry popped target pc mask =>
        exact ⟨entry, popped, mask, Or.inl target⟩
    | syncDeferred _ entry popped target pc mask =>
        exact ⟨entry, popped, mask, Or.inr pc⟩
  obtain ⟨entry, stack, mask, target⟩ := popped
  rw [stack] at explained
  cases originsShape : before.origins with
  | nil =>
      rw [originsShape] at explained
      exact explained.elim
  | cons origin rest =>
      rw [originsShape] at explained
      cases origin with
      | ssy pushedAt =>
          exact ⟨pushedAt, rest, rfl, mask.trans explained.1,
            explained.2.1.symm⟩
      | deferred pushedAt =>
          obtain ⟨entryTarget, diverges, notSync, -⟩ := explained
          obtain ⟨branch, _, branchFetched, branchOpcode, -⟩ := diverges
          exfalso
          rcases target with atSync | resumed
          · exact notSync
              ⟨fetchedInst, by rw [← entryTarget, atSync]; exact fetched,
                opcode⟩
          · have samePc : pushedAt.warpPc = before.warp.warpPc := by omega
            rw [samePc] at branchFetched
            have sameInst := fetch_opcode branchFetched fetched
            rw [sameInst, opcode] at branchOpcode
            cases branchOpcode

/--
In every run whose states defer no path that starts at a `SYNC`, each `SYNC`
that advances restores the mask and the stack of an `SSY`.
-/
theorem sync_reconverges
    (kernel : Kernel)
    (initial : Warp)
    (launched : Launched initial)
    {before after : Traced}
    (run : Relation.ReflTransGen (GuardedStep kernel) ⟨initial, []⟩ before)
    (step : Step kernel before after) :
    Reconverges kernel before after :=
  step.reconverges (explains_of_run launched run)

/-- One computed step against a fixed memory system. -/
def advance? (kernel : Kernel) (memory : MemorySystem) (state : Traced) :
    Option Traced :=
  match kernel.fetch? state.warp.warpPc with
  | none => none
  | some inst =>
      match execute inst (state.warp, memory) with
      | .error _ _ => none
      | .ok _ (warp, _) =>
          some ⟨warp, nextOrigins inst state.warp warp state.origins⟩

/-- Computed steps are steps. -/
theorem Step.of_advance?
    {kernel : Kernel}
    {memory : MemorySystem}
    {before after : Traced}
    (computed : advance? kernel memory before = some after) :
    Step kernel before after := by
  unfold advance? at computed
  cases fetched : kernel.fetch? before.warp.warpPc with
  | none =>
      simp [fetched] at computed
  | some inst =>
      cases ran : execute inst (before.warp, memory) with
      | error error state =>
          simp [fetched, ran] at computed
      | ok result state =>
          simp only [fetched, ran, Option.some.injEq] at computed
          subst computed
          exact ⟨inst, result, memory, state.2, fetched, ran, rfl⟩

/-- A decidable reason for `NoSyncDeferred`: no branch falls into a `SYNC`. -/
def branchFallsElsewhere (kernel : Kernel) (state : Traced) : Bool :=
  (kernel.fetch? state.warp.warpPc).map Instruction.opcode ≠ some .branch ||
    (kernel.fetch? (state.warp.warpPc + 1)).map Instruction.opcode ≠ some .sync

theorem NoSyncDeferred.of_branchFallsElsewhere
    {kernel : Kernel}
    {state : Traced}
    (elsewhere : branchFallsElsewhere kernel state = true) :
    NoSyncDeferred kernel state := by
  rintro ⟨⟨branch, _, fetched, opcode, -⟩, next, nextFetched, nextOpcode⟩
  simp [branchFallsElsewhere, fetched, opcode, nextFetched, nextOpcode]
    at elsewhere

/-- Computed runs of a given length through allowed states. -/
def runFor
    (kernel : Kernel)
    (memory : MemorySystem)
    (allowed : Traced → Bool) :
    Nat → Traced → Option Traced
  | 0, state => some state
  | steps + 1, state =>
      if allowed state then
        (advance? kernel memory state).bind
          (runFor kernel memory allowed steps)
      else
        none

/-- Computed runs are runs of any relation that has the allowed steps. -/
theorem runFor_run
    {kernel : Kernel}
    {memory : MemorySystem}
    {allowed : Traced → Bool}
    {relation : Traced → Traced → Prop}
    (related :
      ∀ {first second : Traced},
        allowed first = true →
        Step kernel first second →
        relation first second)
    {steps : Nat}
    {before after : Traced}
    (computed : runFor kernel memory allowed steps before = some after) :
    Relation.ReflTransGen relation before after := by
  induction steps generalizing before with
  | zero =>
      simp only [runFor, Option.some.injEq] at computed
      subst computed
      exact .refl
  | succ steps inductionHypothesis =>
      simp only [runFor] at computed
      split at computed
      · rename_i isAllowed
        obtain ⟨middle, advanced, rest⟩ := Option.bind_eq_some_iff.mp computed
        exact .head (related isAllowed (.of_advance? advanced))
          (inductionHypothesis rest)
      · cases computed

/-- A two-lane if-then region: lane 0 skips the body, lane 1 executes it. -/
def ifThenKernel : Kernel where
  instructions :=
    [⟨.ssy, -1, -1, -1, 4⟩,
      ⟨.cmp, -1, 0, 1, 0⟩,
      ⟨.branch, -1, -1, -1, 2⟩,
      ⟨.mov, 2, -1, -1, 7⟩,
      ⟨.sync, 0, 0, 0, 0⟩]
  lengthFits := by decide

/--
A two-lane do-while region: register 0 counts up by register 1, and a lane
repeats the body while its count equals register 2.
-/
def doWhileKernel : Kernel where
  instructions :=
    [⟨.ssy, -1, -1, -1, 4⟩,
      ⟨.add, 0, 0, 1, 0⟩,
      ⟨.cmp, -1, 0, 2, 0⟩,
      ⟨.branch, -1, -1, -1, -2⟩,
      ⟨.sync, 0, 0, 0, 0⟩]
  lengthFits := by decide

/-- Two lanes that differ in register 2, the iteration they repeat at. -/
def twoLanes : Warp :=
  Warp.ofThreads 0
    [((Thread.new 0 0 0 0 0).seed 1 1).seed 2 1,
      ((Thread.new 1 0 1 0 1).seed 1 1).seed 2 5]

/-- Two lanes of which only the first has equal registers 0 and 1. -/
def skippingLanes : Warp :=
  Warp.ofThreads 0 [Thread.new 0 0 0 0 0, (Thread.new 1 0 1 0 1).seed 0 1]

/-- The if-then region reconverges with both lanes. -/
theorem sync_reconverges_ifThen :
    ∃ before after,
      Relation.ReflTransGen (GuardedStep ifThenKernel)
          ⟨skippingLanes, []⟩ before ∧
        Step ifThenKernel before after ∧
        before.warp.warpPc = 4 ∧ after.warp.warpPc = 5 ∧
        after.warp.activeMask = 3 ∧
        Reconverges ifThenKernel before after := by
  have computed :
      ((runFor ifThenKernel (.minimal 1)
          (branchFallsElsewhere ifThenKernel) 5 ⟨skippingLanes, []⟩).bind
        fun before =>
          (advance? ifThenKernel (.minimal 1) before).map fun after =>
            (before.warp.warpPc, after.warp.warpPc, after.warp.activeMask)) =
        some (4, 5, 3) := by
    decide +kernel
  obtain ⟨before, reached, computed⟩ := Option.bind_eq_some_iff.mp computed
  obtain ⟨after, advanced, shape⟩ := Option.map_eq_some_iff.mp computed
  simp only [Prod.mk.injEq] at shape
  have run :
      Relation.ReflTransGen (GuardedStep ifThenKernel)
        ⟨skippingLanes, []⟩ before :=
    runFor_run
      (fun elsewhere step => ⟨.of_branchFallsElsewhere elsewhere, step⟩)
      reached
  have step : Step ifThenKernel before after := .of_advance? advanced
  exact
    ⟨before, after, run, step, shape.1, shape.2.1, shape.2.2,
      sync_reconverges ifThenKernel skippingLanes
        ⟨by decide, by decide, by decide⟩ run step⟩

/--
The do-while region loses a lane: the first lane repeats the body and then
reaches the `SYNC`, which takes the second lane's deferred path for the token.
-/
theorem doWhile_does_not_reconverge :
    ¬ ∀ (kernel : Kernel) (initial : Warp) (before after : Traced),
        SsyTargetsSync kernel →
        Launched initial →
        Relation.ReflTransGen (Step kernel) ⟨initial, []⟩ before →
        Step kernel before after →
        Reconverges kernel before after := by
  intro always
  have computed :
      ((runFor doWhileKernel (.minimal 1) (fun _ => true) 7
          ⟨twoLanes, []⟩).bind
        fun before =>
          (advance? doWhileKernel (.minimal 1) before).map fun after =>
            (before.warp.warpPc, after.warp.warpPc, after.warp.activeMask,
              before.origins.map fun origin =>
                match origin with
                | .ssy _ => Opcode.ssy
                | .deferred _ => Opcode.branch)) =
        some (4, 5, 2, [.branch, .ssy]) := by
    decide +kernel
  obtain ⟨before, reached, computed⟩ := Option.bind_eq_some_iff.mp computed
  obtain ⟨after, advanced, shape⟩ := Option.map_eq_some_iff.mp computed
  simp only [Prod.mk.injEq] at shape
  obtain ⟨atSync, pastSync, -, kinds⟩ := shape
  have targets : SsyTargetsSync doWhileKernel := by
    intro pc inst fetched opcode
    have isFirst : pc = 0 := by
      have inside := Kernel.fetch?_lt fetched
      have bound : doWhileKernel.size = 5 := rfl
      rw [bound] at inside
      interval_cases pc <;> cases fetched <;> first | rfl | cases opcode
    subst isFirst
    cases fetched
    exact ⟨⟨.sync, 0, 0, 0, 0⟩, by decide +kernel, rfl⟩
  have run :
      Relation.ReflTransGen (Step doWhileKernel) ⟨twoLanes, []⟩ before :=
    runFor_run (fun _ step => step) reached
  obtain ⟨pushedAt, rest, origins, -⟩ :=
    always doWhileKernel twoLanes before after targets
      ⟨by decide, by decide, by decide⟩ run (.of_advance? advanced)
      (by rw [atSync]; rfl) rfl (by rw [atSync, pastSync])
  rw [origins] at kinds
  cases kinds

end Reconvergence

end SimSm
