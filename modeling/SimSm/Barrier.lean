import SimSm.Library.Rendezvous
import SimSm.Policies
import SimSm.Residency

namespace SimSm

/-!
# Barriers of a block

A barrier is decided by rescanning the warp vector at every arrival.  Over any
run of ticks the rescans add up to a rendezvous of the block: its warps are
released together, and each of them has arrived as often as it was released.
-/

open InstructionExecutor

namespace Barrier

/-- The state of the warp at a position. -/
def stateAt (warps : List Warp) (position : Nat) : Option WarpState :=
  warps[position]?.map Warp.state

/-- The block of the warp at a position. -/
def blockAt (warps : List Warp) (position : Nat) : Option Nat :=
  warps[position]?.bind Warp.blockId?

/-- The warp's next instruction is a barrier. -/
def AtBarrier (kernel : Kernel) (warp : Warp) : Prop :=
  ∃ inst,
    kernel.fetch? warp.warpPc = some inst ∧ inst.opcode = .barrier

/--
Issuing the warp ends it, other than through a barrier: it fetches past the
end, or its instruction leaves the kernel and no path is left on its stack.
-/
def EndsKernel (kernel : Kernel) (warp : Warp) : Prop :=
  kernel.size ≤ warp.warpPc ∨
    ∃ inst,
      kernel.fetch? warp.warpPc = some inst ∧
        match inst.opcode with
        | .barrier | .ssy | .unknown => False
        | .branch =>
            warp.simtStack = [] ∧
              (TakenLanes warp 0 ∧ kernel.size ≤ nextPc warp.warpPc ∨
                warp.activeMask ≠ 0 ∧ TakenLanes warp warp.activeMask ∧
                  kernel.size ≤ branchPc warp.warpPc inst.immediate)
        | .sync =>
            ∃ entry,
              warp.simtStack = [entry] ∧
                kernel.size ≤
                  if entry.targetPc = warp.warpPc then
                    nextPc warp.warpPc
                  else
                    entry.targetPc
        | _ =>
            warp.simtStack = [] ∧ kernel.size ≤ nextPc warp.warpPc

/-- The lanes that a branch takes are determined. -/
theorem takenLanes_unique
    {warp : Warp}
    {first second : ActiveMask}
    (takenFirst : TakenLanes warp first)
    (takenSecond : TakenLanes warp second) :
    first = second := by
  apply ActiveMask.eq_of_lanes
  intro lane _
  rw [Bool.eq_iff_iff, takenFirst lane, takenSecond lane]

/-- An instruction that is no barrier ends a warp exactly when foreseen. -/
theorem ended_iff
    {kernel : Kernel}
    {inst : Instruction}
    {result : ExecutionResult}
    {warp executed : Warp}
    {memory memory' : MemorySystem}
    (fetched : kernel.fetch? warp.warpPc = some inst)
    (ran :
      execute inst (warp, memory) = .ok result (executed, memory'))
    (notBarrier : inst.opcode ≠ .barrier) :
    SM.Ended kernel executed ↔ EndsKernel kernel warp := by
  have inside : ¬ kernel.size ≤ warp.warpPc :=
    Nat.not_le.mpr (Kernel.fetch?_lt fetched)
  have onlyInst :
      EndsKernel kernel warp ↔
        ∃ other, kernel.fetch? warp.warpPc = some other ∧ _ :=
    or_iff_right inside
  rw [onlyInst]
  simp only [fetched, Option.some.injEq, exists_eq_left']
  unfold SM.Ended
  have control := (execute_ok ran).control
  dsimp only at control
  cases control with
  | fallThrough straight pc mask stack =>
      rw [pc, stack, and_comm]
      rcases straight with lanes | isLoad | isStore | isAtomic
      · obtain ⟨body, shape⟩ := Option.isSome_iff_exists.mp lanes
        rcases threadBody?_opcode shape with
          opcode | opcode | opcode | opcode | opcode <;>
          simp only [opcode]
      · simp only [isLoad]
      · simp only [isStore]
      · simp only [isAtomic]
  | barrier opcode =>
      exact (notBarrier opcode).elim
  | branchNone opcode taken pc mask stack =>
      simp only [opcode, pc, stack]
      constructor
      · rintro ⟨outside, empty⟩
        exact ⟨empty, Or.inl ⟨taken, outside⟩⟩
      · rintro ⟨empty, ⟨_, outside⟩ | ⟨some, all, _⟩⟩
        · exact ⟨outside, empty⟩
        · exact (some (takenLanes_unique all taken)).elim
  | branchAll opcode some taken pc mask stack =>
      simp only [opcode, pc, stack]
      constructor
      · rintro ⟨outside, empty⟩
        exact ⟨empty, Or.inr ⟨some, taken, outside⟩⟩
      · rintro ⟨empty, ⟨none, _⟩ | ⟨_, _, outside⟩⟩
        · exact (some (takenLanes_unique taken none)).elim
        · exact ⟨outside, empty⟩
  | diverge opcode taken some proper pc stack =>
      simp only [opcode, stack]
      constructor
      · rintro ⟨_, empty⟩
        cases empty
      · rintro ⟨_, ⟨none, _⟩ | ⟨_, all, _⟩⟩
        · exact (some (takenLanes_unique taken none)).elim
        · exact (proper (takenLanes_unique taken all)).elim
  | ssy opcode pc mask stack =>
      simp [opcode, stack]
  | syncToken opcode entry popped target pc mask =>
      simp only [opcode, pc, popped]
      constructor
      · rintro ⟨outside, empty⟩
        exact ⟨entry, by rw [empty], by rwa [if_pos target]⟩
      · rintro ⟨other, same, outside⟩
        obtain ⟨rfl, empty⟩ := List.cons.inj same
        rw [if_pos target] at outside
        exact ⟨outside, empty⟩
  | syncDeferred opcode entry popped target pc mask =>
      simp only [opcode, pc, popped]
      constructor
      · rintro ⟨outside, empty⟩
        exact ⟨entry, by rw [empty], by rwa [if_neg target]⟩
      · rintro ⟨other, same, outside⟩
        obtain ⟨rfl, empty⟩ := List.cons.inj same
        rw [if_neg target] at outside
        exact ⟨outside, empty⟩

/-- A warp past the end, or at another instruction, is not at a barrier. -/
theorem not_atBarrier
    {kernel : Kernel}
    {inst : Instruction}
    {warp : Warp}
    (fetched : kernel.fetch? warp.warpPc = some inst)
    (notBarrier : inst.opcode ≠ .barrier) :
    ¬ AtBarrier kernel warp := by
  rintro ⟨other, foundOther, opcode⟩
  rw [fetched, Option.some.injEq] at foundOther
  rw [foundOther] at notBarrier
  exact notBarrier opcode

/-- What one issue does to the states of the warps. -/
inductive StateStep
    (kernel : Kernel)
    (warps : List Warp)
    (index : Nat)
    (warp : Warp)
    (after : List Warp) : Prop where
  | ends
      (elsewhere : ¬ AtBarrier kernel warp)
      (ends : EndsKernel kernel warp)
      (issued : stateAt after index = some .completed)
      (others :
        ∀ position, position ≠ index →
          stateAt after position = stateAt warps position)
  | goesOn
      (elsewhere : ¬ AtBarrier kernel warp)
      (goesOn : ¬ EndsKernel kernel warp)
      (issued :
        stateAt after index = some .ready ∨
          stateAt after index = some .stalled)
      (others :
        ∀ position, position ≠ index →
          stateAt after position = stateAt warps position)
  | waits
      (arrives : AtBarrier kernel warp)
      (issued : stateAt after index = some .stalledAtBarrier)
      (others :
        ∀ position, position ≠ index →
          stateAt after position = stateAt warps position)
      (runs :
        ∃ position, position ≠ index ∧
          blockAt warps position = warp.blockId? ∧
          (stateAt warps position = some .ready ∨
            stateAt warps position = some .stalled))
  | released
      (arrives : AtBarrier kernel warp)
      (issued :
        stateAt after index = some .ready ∨
          stateAt after index = some .completed)
      (wait :
        ∀ position, position ≠ index →
          blockAt warps position = warp.blockId? →
          stateAt warps position = some .stalledAtBarrier)
      (leave :
        ∀ position, position ≠ index →
          blockAt warps position = warp.blockId? →
          stateAt after position = some .ready)
      (others :
        ∀ position,
          blockAt warps position ≠ warp.blockId? →
          stateAt after position = stateAt warps position)

/-- Writing a warp at a position sets the state there and no other. -/
theorem stateAt_set_self
    {warps : List Warp}
    {index : Nat}
    {found warp : Warp}
    (inside : warps[index]? = some found) :
    stateAt (warps.set index warp) index = some warp.state := by
  rw [stateAt,
    List.getElem?_set_self (List.getElem?_eq_some_iff.mp inside).1]
  rfl

theorem stateAt_set_ne
    {warps : List Warp}
    {index position : Nat}
    {warp : Warp}
    (elsewhere : position ≠ index) :
    stateAt (warps.set index warp) position = stateAt warps position := by
  rw [stateAt, List.getElem?_set_ne elsewhere.symm, stateAt]

/-- A running warp is ready or stalled. -/
theorem running_iff
    {warp : Warp} :
    warp.Running ↔ warp.state = .ready ∨ warp.state = .stalled := by
  unfold Warp.Running
  cases warp.state <;> simp

/-- Every issue of a ready warp that has a block is such a step. -/
theorem stateStep_of_issue
    {kernel : Kernel}
    {warps after : List Warp}
    {index blockId : Nat}
    {warp : Warp}
    {memory memory' : MemorySystem}
    (found : warps[index]? = some warp)
    (ready : warp.state = .ready)
    (ofBlock : warp.blockId? = some blockId)
    (step : SM.IssueStep kernel warps index warp memory after memory') :
    StateStep kernel warps index warp after := by
  cases step with
  | pastEnd outside =>
      refine
        .ends ?_ (Or.inl outside) (stateAt_set_self found)
          fun _ elsewhere => stateAt_set_ne elsewhere
      rintro ⟨inst, fetched, _⟩
      exact Nat.not_le.mpr (Kernel.fetch?_lt fetched) outside
  | executed fetched ran notBarrier =>
      rename_i inst result executed
      have facts := execute_ok ran
      have executedReady : executed.state = .ready :=
        facts.shell.state.trans ready
      have elsewhere := not_atBarrier fetched notBarrier
      have endsIff := ended_iff fetched ran notBarrier
      rcases SM.settle_ready executedReady with
        ⟨ended, completed⟩ | ⟨goesOn, running⟩
      · refine
          .ends elsewhere (endsIff.mp ended) ?_
            fun _ notIndex => stateAt_set_ne notIndex
        rw [stateAt_set_self found, completed]
      · refine
          .goesOn elsewhere (fun ends => goesOn (endsIff.mpr ends)) ?_
            fun _ notIndex => stateAt_set_ne notIndex
        rw [stateAt_set_self found, Option.some.injEq, Option.some.injEq]
        exact running_iff.mp running
  | waits fetched ran barrier otherRuns =>
      rename_i inst result executed
      have facts := execute_ok ran
      have sameBlock : executed.blockId? = some blockId :=
        (Warp.blockId?_of_identity facts.shell.identity).trans ofBlock
      refine
        .waits ⟨inst, fetched, barrier⟩ ?_
          (fun _ notIndex => stateAt_set_ne notIndex) ?_
      · rw [stateAt_set_self found,
          SM.settle_barrier (facts.barrier.mpr barrier) (Or.inr rfl)]
        rfl
      · obtain ⟨position, other, notIndex, foundOther, inBlock, running⟩ :=
          otherRuns
        rw [sameBlock, Option.getD_some, SM.belongsTo, beq_iff_eq] at inBlock
        refine ⟨position, notIndex, ?_, ?_⟩
        · rw [blockAt, foundOther, Option.bind_some, inBlock, ofBlock]
        · rw [stateAt, foundOther, Option.map_some, Option.some.injEq,
            Option.some.injEq]
          exact running_iff.mp running
  | released cycle fetched ran barrier othersWait =>
      rename_i inst result executed
      have facts := execute_ok ran
      have sameBlock : executed.blockId? = some blockId :=
        (Warp.blockId?_of_identity facts.shell.identity).trans ofBlock
      rw [sameBlock, Option.getD_some] at othersWait ⊢
      have foundReleased :
          (warps.map (Warp.releaseFrom blockId cycle))[index]? =
            some (warp.releaseFrom blockId cycle) := by
        rw [List.getElem?_map, found, Option.map_some]
      have atOther
          {position : Nat}
          (notIndex : position ≠ index)
          (settled : Warp) :
          stateAt
              ((warps.map (Warp.releaseFrom blockId cycle)).set index
                settled)
              position =
            warps[position]?.map fun other =>
              (other.releaseFrom blockId cycle).state := by
        rw [stateAt_set_ne notIndex, stateAt, List.getElem?_map,
          Option.map_map]
        rfl
      refine .released ⟨inst, fetched, barrier⟩ ?_ ?_ ?_ ?_
      · have releasedReady :
            (executed.setStalledAtBarrier.releaseFrom blockId cycle).state =
              .ready :=
          Warp.releaseFrom_waiting sameBlock rfl
        rw [stateAt_set_self foundReleased, Option.some.injEq,
          Option.some.injEq]
        rcases SM.settle_ready releasedReady with
          ⟨_, completed⟩ | ⟨goesOn, _⟩
        · exact Or.inr completed
        · left
          rw [SM.settle_barrier (facts.barrier.mpr barrier) (Or.inl goesOn)]
          exact releasedReady
      · intro position notIndex inBlock
        rw [blockAt, ofBlock, Option.bind_eq_some_iff] at inBlock
        obtain ⟨other, foundOther, otherBlock⟩ := inBlock
        rw [stateAt, foundOther, Option.map_some,
          othersWait position other notIndex foundOther
            (by rw [SM.belongsTo, otherBlock, beq_self_eq_true])]
      · intro position notIndex inBlock
        rw [blockAt, ofBlock, Option.bind_eq_some_iff] at inBlock
        obtain ⟨other, foundOther, otherBlock⟩ := inBlock
        have waiting :=
          othersWait position other notIndex foundOther
            (by rw [SM.belongsTo, otherBlock, beq_self_eq_true])
        rw [atOther notIndex, foundOther, Option.map_some,
          Warp.releaseFrom_waiting otherBlock waiting]
      · intro position notBlock
        have notIndex : position ≠ index := by
          rintro rfl
          rw [blockAt, found] at notBlock
          exact notBlock rfl
        rw [atOther notIndex, stateAt]
        cases foundOther : warps[position]? with
        | none => rfl
        | some other =>
            rw [blockAt, foundOther, ofBlock] at notBlock
            rw [Option.map_some, Option.map_some,
              Warp.releaseFrom_elsewhere notBlock]

/-! ## Counting arrivals and releases -/

section Counting

variable {σ : Type}

/-- The warp at a position waits at a barrier. -/
def waitsAt (warps : List Warp) (position : Nat) : Bool :=
  stateAt warps position == some .stalledAtBarrier

/-- The next tick executes a barrier for the warp at a position. -/
def arrives [WarpScheduler σ]
    (kernel : Kernel)
    (sm : SM σ)
    (position : Nat) :
    Bool :=
  match sm.issued? with
  | none => false
  | some (index, warp) =>
      position == index &&
        (kernel.fetch? warp.warpPc).map Instruction.opcode == some .barrier

/-- A tick ends the wait of the warp at a position, also one begun in it. -/
def leaves [WarpScheduler σ]
    (kernel : Kernel)
    (sm after : SM σ)
    (position : Nat) :
    Bool :=
  (waitsAt sm.warps position || arrives kernel sm position) &&
    !waitsAt after.warps position

/-- How often the warp at each position has arrived at and left a barrier. -/
structure Tally where
  arrivals : Nat → Nat
  releases : Nat → Nat

/-- Count one tick. -/
def Tally.count [WarpScheduler σ]
    (tally : Tally)
    (kernel : Kernel)
    (sm after : SM σ) :
    Tally where
  arrivals := fun position =>
    tally.arrivals position + (arrives kernel sm position).toNat
  releases := fun position =>
    tally.releases position + (leaves kernel sm after position).toNat

/--
The states that ticks reach, with what was counted on the way.  The memory
system may be another one in every tick.
-/
inductive Ticked [WarpScheduler σ]
    (kernel : Kernel)
    (start : SM σ) :
    SM σ → Tally → Prop where
  | start :
      Ticked kernel start start ⟨fun _ => 0, fun _ => 0⟩
  | tick
      {sm after : SM σ}
      {tally : Tally}
      {memory memory' : MemorySystem}
      (earlier : Ticked kernel start sm tally)
      (ran : sm.tick kernel memory = .ok (after, memory')) :
      Ticked kernel start after (tally.count kernel sm after)

/-- Several ticks, counted. -/
def runTicks [WarpScheduler σ]
    (kernel : Kernel) :
    Nat → SM σ → Tally → MemorySystem → Option (SM σ × Tally)
  | 0, sm, tally, _ => some (sm, tally)
  | cycles + 1, sm, tally, memory =>
      match sm.tick kernel memory with
      | .error _ => none
      | .ok (after, memory) =>
          runTicks kernel cycles after (tally.count kernel sm after) memory

/-- Counted ticks reach states of the run. -/
theorem Ticked.runTicks
    [WarpScheduler σ]
    {kernel : Kernel}
    {start sm final : SM σ}
    {tally finalTally : Tally}
    {memory : MemorySystem}
    {cycles : Nat}
    (ticked : Ticked kernel start sm tally)
    (ran :
      Barrier.runTicks kernel cycles sm tally memory =
        some (final, finalTally)) :
    Ticked kernel start final finalTally := by
  induction cycles generalizing sm tally memory with
  | zero =>
      simp only [Barrier.runTicks, Option.some.injEq, Prod.mk.injEq] at ran
      obtain ⟨rfl, rfl⟩ := ran
      exact ticked
  | succ cycles inductionHypothesis =>
      rw [Barrier.runTicks] at ran
      split at ran
      · cases ran
      · rename_i ticks
        exact inductionHypothesis (ticked.tick ticks) ran

/-- The rendezvous board that a state and its counts show. -/
def board (sm : SM σ) (tally : Tally) : Rendezvous.Board Nat where
  waiting := waitsAt sm.warps
  arrivals := tally.arrivals
  releases := tally.releases

/-- Blocks are determined by identities. -/
theorem blockAt_of_identities
    {first second : List Warp}
    (same : first.map Warp.identity = second.map Warp.identity)
    (position : Nat) :
    blockAt first position = blockAt second position := by
  have sameAt := congrArg (fun identities => identities[position]?) same
  simp only [List.getElem?_map] at sameAt
  unfold blockAt
  cases left : first[position]? with
  | none =>
      rw [left, Option.map_none] at sameAt
      rw [Option.map_eq_none_iff.mp sameAt.symm]
  | some warp =>
      rw [left, Option.map_some] at sameAt
      obtain ⟨other, right, sameIdentity⟩ :=
        Option.map_eq_some_iff.mp sameAt.symm
      rw [right, Option.bind_some, Option.bind_some,
        Warp.blockId?_of_identity sameIdentity]

/-- A state that time neither starts nor ends is the same before and after. -/
theorem stateAt_of_waited
    {before after : List Warp}
    {state : WarpState}
    (waited : List.Forall₂ Waited before after)
    (fixed :
      ∀ {earlier later : Warp},
        Waited earlier later →
        (later.state = state ↔ earlier.state = state))
    (position : Nat) :
    stateAt after position = some state ↔
      stateAt before position = some state := by
  unfold stateAt
  constructor
  · intro isState
    obtain ⟨later, found, laterState⟩ := Option.map_eq_some_iff.mp isState
    obtain ⟨earlier, foundEarlier, related⟩ :=
      Pointwise.origin waited found
    rw [foundEarlier, Option.map_some, (fixed related).mp laterState]
  · intro isState
    obtain ⟨earlier, found, earlierState⟩ :=
      Option.map_eq_some_iff.mp isState
    obtain ⟨later, foundLater, related⟩ := Pointwise.partner waited found
    rw [foundLater, Option.map_some, (fixed related).mpr earlierState]

/-- Time changes no wait at a barrier. -/
theorem waitsAt_of_waited
    {before after : List Warp}
    (waited : List.Forall₂ Waited before after)
    (position : Nat) :
    waitsAt after position = waitsAt before position := by
  rw [Bool.eq_iff_iff, waitsAt, waitsAt, beq_iff_eq, beq_iff_eq]
  exact stateAt_of_waited waited Waited.atBarrier_iff position

/-- A quiet tick leaves the board as it is. -/
theorem count_quiet
    [WarpScheduler σ]
    {kernel : Kernel}
    {sm after : SM σ}
    (tally : Tally)
    (nothing : ∀ position, arrives kernel sm position = false)
    (same :
      ∀ position,
        waitsAt after.warps position = waitsAt sm.warps position) :
    board after (tally.count kernel sm after) = board sm tally := by
  ext position
  · exact same position
  · simp [board, Tally.count, nothing]
  · simp [board, Tally.count, leaves, nothing, same]

/-- Only the issued warp can arrive. -/
theorem arrives_of_issued
    [WarpScheduler σ]
    {kernel : Kernel}
    {sm : SM σ}
    {index : Nat}
    {warp : Warp}
    (selected : sm.issued? = some (index, warp))
    (atBarrier : AtBarrier kernel warp)
    (position : Nat) :
    arrives kernel sm position = (position == index) := by
  obtain ⟨inst, fetched, opcode⟩ := atBarrier
  simp [arrives, selected, fetched, opcode]

/-- A warp issued elsewhere than at a barrier does not arrive. -/
theorem not_arrives_of_issued
    [WarpScheduler σ]
    {kernel : Kernel}
    {sm : SM σ}
    {index : Nat}
    {warp : Warp}
    (selected : sm.issued? = some (index, warp))
    (elsewhere : ¬ AtBarrier kernel warp)
    (position : Nat) :
    arrives kernel sm position = false := by
  simp only [arrives, selected]
  cases fetched : kernel.fetch? warp.warpPc with
  | none => simp
  | some inst =>
      have notBarrier : inst.opcode ≠ .barrier := fun opcode =>
        elsewhere ⟨inst, fetched, opcode⟩
      simp [notBarrier]

/-- An arrival that waits is an arrival on the board. -/
theorem count_waits
    [WarpScheduler σ]
    {kernel : Kernel}
    {sm after : SM σ}
    {index : Nat}
    (tally : Tally)
    (arrival :
      ∀ position, arrives kernel sm position = (position == index))
    (issued : waitsAt after.warps index = true)
    (others :
      ∀ position, position ≠ index →
        waitsAt after.warps position = waitsAt sm.warps position) :
    board after (tally.count kernel sm after) =
      (board sm tally).arrive index := by
  ext position
  all_goals
    by_cases same : position = index
    · subst same
      simp [board, Tally.count, leaves, Rendezvous.Board.arrive, arrival,
        issued]
    · simp [board, Tally.count, leaves, Rendezvous.Board.arrive, arrival,
        same, others]

/-- An arrival that releases is a rendezvous on the board. -/
theorem count_released
    [WarpScheduler σ]
    {kernel : Kernel}
    {sm after : SM σ}
    {index : Nat}
    {group : Nat → Option Nat}
    (tally : Tally)
    (arrival :
      ∀ position, arrives kernel sm position = (position == index))
    (wait :
      ∀ position, position ≠ index →
        group position = group index →
        waitsAt sm.warps position = true)
    (leave :
      ∀ position, group position = group index →
        waitsAt after.warps position = false)
    (others :
      ∀ position, group position ≠ group index →
        waitsAt after.warps position = waitsAt sm.warps position) :
    board after (tally.count kernel sm after) =
      ((board sm tally).arrive index).release group (group index) := by
  ext position
  all_goals
    by_cases same : position = index
    · subst same
      simp [board, Tally.count, leaves, Rendezvous.Board.arrive,
        Rendezvous.Board.release, arrival, leave]
    · by_cases inGroup : group position = group index
      · simp [board, Tally.count, leaves, Rendezvous.Board.arrive,
          Rendezvous.Board.release, arrival, same, inGroup,
          leave position inGroup, wait position same inGroup]
      · simp [board, Tally.count, leaves, Rendezvous.Board.arrive,
          Rendezvous.Board.release, arrival, same, inGroup,
          others position inGroup]

/-- Whether a position waits is told from its state. -/
theorem waitsAt_congr
    {first second : List Warp}
    {position : Nat}
    (same : stateAt first position = stateAt second position) :
    waitsAt first position = waitsAt second position := by
  rw [waitsAt, waitsAt, same]

/-- Every warp of a multiprocessor belongs to a block. -/
def EveryWarpHasBlock (warps : List Warp) : Prop :=
  ∀ warp ∈ warps, ∃ blockId, warp.blockId? = some blockId

/-- A tick is a step of the rendezvous board of the blocks. -/
theorem board_step
    [WarpScheduler σ]
    [LawfulWarpScheduler σ]
    {kernel : Kernel}
    {sm after : SM σ}
    {tally : Tally}
    {memory memory' : MemorySystem}
    (haveBlocks : EveryWarpHasBlock sm.warps)
    (ran : sm.tick kernel memory = .ok (after, memory')) :
    Rendezvous.Board.Step (blockAt sm.warps)
      (board sm tally) (board after (tally.count kernel sm after)) := by
  obtain ⟨_, _, step⟩ := SM.tick_ok ran
  generalize final : after.warps = warps at step
  cases step with
  | quiet nothing waited =>
      rw [count_quiet tally (fun _ => by simp [arrives, nothing])
        (by rw [final]; exact waitsAt_of_waited waited)]
      exact .idle _
  | issued selected issueStep =>
      rename_i index warp
      have foundTimed := SM.issued?_timed selected
      have ready := SM.issued?_ready selected
      obtain ⟨before, found, waited⟩ := SM.issued?_waited selected
      obtain ⟨blockId, beforeBlock⟩ :=
        haveBlocks before (List.mem_of_getElem? found)
      have ofBlock : warp.blockId? = some blockId :=
        waited.core.blockId?.trans beforeBlock
      have sameBlocks (position : Nat) :
          blockAt sm.timed position = blockAt sm.warps position :=
        blockAt_of_identities
          (Pointwise.map_eq sm.timed_waited fun related =>
            related.core.identity)
          position
      have sameWaits (position : Nat) :
          waitsAt sm.timed position = waitsAt sm.warps position :=
        waitsAt_of_waited sm.timed_waited position
      have indexBlock : blockAt sm.warps index = warp.blockId? := by
        rw [blockAt, found, Option.bind_some, beforeBlock, ofBlock]
      have indexReady : waitsAt sm.warps index = false := by
        rw [← sameWaits, waitsAt, stateAt, foundTimed, Option.map_some,
          ready]
        rfl
      subst final
      have keeps
          (others :
            ∀ position, position ≠ index →
              stateAt after.warps position = stateAt sm.timed position)
          (position : Nat)
          (notIndex : position ≠ index) :
          waitsAt after.warps position = waitsAt sm.warps position :=
        (waitsAt_congr (others position notIndex)).trans (sameWaits position)
      have idle
          (elsewhere : ¬ AtBarrier kernel warp)
          (notWaiting : waitsAt after.warps index = false)
          (others :
            ∀ position, position ≠ index →
              stateAt after.warps position = stateAt sm.timed position) :
          Rendezvous.Board.Step (blockAt sm.warps)
            (board sm tally) (board after (tally.count kernel sm after)) := by
        rw [count_quiet tally (not_arrives_of_issued selected elsewhere)]
        · exact .idle _
        · intro position
          by_cases same : position = index
          · rw [same, notWaiting, indexReady]
          · exact keeps others position same
      cases stateStep_of_issue foundTimed ready ofBlock issueStep with
      | ends elsewhere _ issued others =>
          exact idle elsewhere (by rw [waitsAt, issued]; rfl) others
      | goesOn elsewhere _ issued others =>
          refine idle elsewhere ?_ others
          rcases issued with isReady | isStalled
          · rw [waitsAt, isReady]
            rfl
          · rw [waitsAt, isStalled]
            rfl
      | waits atBarrier issued others runs =>
          rw [count_waits tally (arrives_of_issued selected atBarrier)
            (by rw [waitsAt, issued]; rfl) (keeps others)]
          exact .arrive indexReady
      | released atBarrier issued wait leave others =>
          have waiting (position : Nat)
              (notIndex : position ≠ index)
              (inBlock : blockAt sm.warps position = blockAt sm.warps index) :
              waitsAt sm.warps position = true := by
            rw [← sameWaits, waitsAt,
              wait position notIndex
                ((sameBlocks position).trans (inBlock.trans indexBlock))]
            rfl
          rw [@count_released _ _ _ _ _ _ (blockAt sm.warps) tally
            (arrives_of_issued selected atBarrier) waiting]
          · exact .rendezvous indexReady waiting
          · intro position inBlock
            by_cases same : position = index
            · rw [same, waitsAt]
              rcases issued with isReady | isCompleted
              · rw [isReady]
                rfl
              · rw [isCompleted]
                rfl
            · rw [waitsAt,
                leave position same
                  ((sameBlocks position).trans (inBlock.trans indexBlock))]
              rfl
          · intro position notBlock
            rw [waitsAt_congr (others position ?_), sameWaits]
            rw [sameBlocks, ← indexBlock]
            exact notBlock

/-- Ticks keep the blocks of the positions. -/
theorem tick_identities
    [WarpScheduler σ]
    {kernel : Kernel}
    {sm after : SM σ}
    {memory memory' : MemorySystem}
    (ran : sm.tick kernel memory = .ok (after, memory')) :
    after.warps.map Warp.identity = sm.warps.map Warp.identity := by
  obtain ⟨_, _, step⟩ := SM.tick_ok ran
  exact step.identities

theorem Ticked.identities
    [WarpScheduler σ]
    {kernel : Kernel}
    {start sm : SM σ}
    {tally : Tally}
    (ticked : Ticked kernel start sm tally) :
    sm.warps.map Warp.identity = start.warps.map Warp.identity := by
  induction ticked with
  | start => rfl
  | tick _ ran inductionHypothesis =>
      exact (tick_identities ran).trans inductionHypothesis

/-- Having blocks is a matter of identities. -/
theorem everyWarpHasBlock_of_identities
    {first second : List Warp}
    (same : second.map Warp.identity = first.map Warp.identity)
    (haveBlocks : EveryWarpHasBlock first) :
    EveryWarpHasBlock second := by
  intro warp member
  have isIdentity : warp.identity ∈ first.map Warp.identity := by
    rw [← same]
    exact List.mem_map_of_mem member
  obtain ⟨other, isOther, sameIdentity⟩ := List.mem_map.mp isIdentity
  rw [← Warp.blockId?_of_identity sameIdentity]
  exact haveBlocks other isOther

/-- A run of ticks is a run of the rendezvous board. -/
theorem Ticked.board_run
    [WarpScheduler σ]
    [LawfulWarpScheduler σ]
    {kernel : Kernel}
    {start sm : SM σ}
    {tally : Tally}
    (haveBlocks : EveryWarpHasBlock start.warps)
    (ticked : Ticked kernel start sm tally) :
    Relation.ReflTransGen
      (Rendezvous.Board.Step (blockAt start.warps))
      (board start ⟨fun _ => 0, fun _ => 0⟩) (board sm tally) := by
  induction ticked with
  | start => exact .refl
  | tick earlier ran inductionHypothesis =>
      have sameBlocks := blockAt_of_identities earlier.identities
      refine inductionHypothesis.tail ?_
      rw [← funext sameBlocks]
      exact
        board_step
          (everyWarpHasBlock_of_identities earlier.identities haveBlocks)
          ran

/-! ## Launched blocks -/

/-- Admit blocks in order, whether or not they fit. -/
def admitAll
    (sm : SM σ)
    (blocks : List (ThreadBlock × KernelResourceRequirements)) :
    SM σ :=
  blocks.foldl
    (fun sm admitted => sm.allocateBlock admitted.1 admitted.2) sm

/-- Blocks of distinct ids, none of whose warps waits before it has run. -/
structure Launch
    (blocks : List (ThreadBlock × KernelResourceRequirements)) : Prop where
  wellFormed : ∀ admitted ∈ blocks, admitted.1.WellFormed
  distinct : (blocks.map fun admitted => admitted.1.blockId).Nodup
  notWaiting :
    ∀ admitted ∈ blocks,
      ∀ warp ∈ admitted.1.warps, warp.state ≠ .stalledAtBarrier

/-- Admission adds the warps of the blocks in order. -/
theorem admitAll_warps
    (sm : SM σ)
    (blocks : List (ThreadBlock × KernelResourceRequirements)) :
    (admitAll sm blocks).warps =
      sm.warps ++ blocks.flatMap fun admitted => admitted.1.warps := by
  unfold admitAll
  induction blocks generalizing sm with
  | nil =>
      rw [List.foldl_nil, List.flatMap_nil, List.append_nil]
  | cons admitted rest inductionHypothesis =>
      rw [List.foldl_cons, inductionHypothesis,
        (SM.allocateBlock_admits sm admitted.1 admitted.2).warps,
        List.flatMap_cons, List.append_assoc]

/-- Every warp of launched blocks belongs to its block. -/
theorem Launch.everyWarpHasBlock
    {vacant : SM σ}
    {blocks : List (ThreadBlock × KernelResourceRequirements)}
    (isVacant : vacant.Vacant)
    (launch : Launch blocks) :
    EveryWarpHasBlock (admitAll vacant blocks).warps := by
  intro warp member
  rw [admitAll_warps, isVacant.warps, List.nil_append] at member
  obtain ⟨admitted, isAdmitted, ofBlock⟩ := List.mem_flatMap.mp member
  exact
    ⟨admitted.1.blockId,
      (launch.wellFormed admitted isAdmitted).blockId? ofBlock⟩

/-- At launch no warp waits. -/
theorem Launch.waitsAt
    {vacant : SM σ}
    {blocks : List (ThreadBlock × KernelResourceRequirements)}
    (isVacant : vacant.Vacant)
    (launch : Launch blocks)
    (position : Nat) :
    waitsAt (admitAll vacant blocks).warps position = false := by
  rw [admitAll_warps, isVacant.warps, List.nil_append, Barrier.waitsAt,
    stateAt]
  cases found :
      (blocks.flatMap fun admitted => admitted.1.warps)[position]? with
  | none => rfl
  | some warp =>
      obtain ⟨admitted, isAdmitted, ofBlock⟩ :=
        List.mem_flatMap.mp (List.mem_of_getElem? found)
      have notWaiting :=
        launch.notWaiting admitted isAdmitted warp ofBlock
      simpa using notWaiting

/-- The counts of a launched run are balanced over the blocks. -/
theorem Ticked.balanced
    [WarpScheduler σ]
    [LawfulWarpScheduler σ]
    {kernel : Kernel}
    {vacant sm : SM σ}
    {blocks : List (ThreadBlock × KernelResourceRequirements)}
    {tally : Tally}
    (isVacant : vacant.Vacant)
    (launch : Launch blocks)
    (ticked : Ticked kernel (admitAll vacant blocks) sm tally) :
    Rendezvous.Board.Balanced (blockAt sm.warps) (board sm tally) := by
  rw [funext (blockAt_of_identities ticked.identities)]
  apply Rendezvous.Board.run_balanced
    (ticked.board_run (launch.everyWarpHasBlock isVacant))
  have nothing :
      board (admitAll vacant blocks) ⟨fun _ => 0, fun _ => 0⟩ =
        ⟨fun _ => false, fun _ => 0, fun _ => 0⟩ := by
    ext position
    · exact launch.waitsAt isVacant position
    · rfl
    · rfl
  rw [nothing]
  exact Rendezvous.Board.balanced_initial _

/-- Whoever leaves a barrier in a tick had its whole block waiting there. -/
theorem leaves_together
    [WarpScheduler σ]
    [LawfulWarpScheduler σ]
    {kernel : Kernel}
    {sm after : SM σ}
    {memory memory' : MemorySystem}
    {first second : Nat}
    (haveBlocks : EveryWarpHasBlock sm.warps)
    (ran : sm.tick kernel memory = .ok (after, memory'))
    (left : leaves kernel sm after first = true)
    (sameBlock : blockAt sm.warps second = blockAt sm.warps first) :
    waitsAt sm.warps second = true ∨ arrives kernel sm second = true := by
  let zero : Tally := ⟨fun _ => 0, fun _ => 0⟩
  have step :
      Rendezvous.Board.Step (blockAt sm.warps)
        (board sm zero) (board after (zero.count kernel sm after)) :=
    board_step haveBlocks ran
  have changed :
      (board after (zero.count kernel sm after)).releases first ≠
        (board sm zero).releases first := by
    simp [zero, board, Tally.count, left]
  simpa [zero, board, Tally.count] using
    step.leaves_together changed sameBlock

/-- A barrier arrival leaves every warp of another block as it is. -/
theorem handleBarrierArrival_elsewhere
    {sm after : SM σ}
    {index blockId position : Nat}
    {warp : Warp}
    (found : sm.warps[index]? = some warp)
    (ofBlock : warp.blockId? = some blockId)
    (ran : sm.handleBarrierArrival index = .ok after)
    (elsewhere : blockAt sm.warps position ≠ some blockId) :
    after.warps[position]? = sm.warps[position]? := by
  have notIndex : index ≠ position := by
    rintro rfl
    rw [blockAt, found] at elsewhere
    exact elsewhere ofBlock
  obtain ⟨_, _, ⟨_, shape⟩ | ⟨_, cycle, shape⟩⟩ :=
    SM.handleBarrierArrival_positions found ran
  · rw [shape, List.getElem?_set_ne notIndex]
  · rw [shape, List.getElem?_set_ne notIndex, List.getElem?_map, ofBlock,
      Option.getD_some]
    cases foundOther : sm.warps[position]? with
    | none => rfl
    | some other =>
        rw [blockAt, foundOther] at elsewhere
        rw [Option.map_some, Warp.releaseFrom_elsewhere elsewhere]

/--
Barrier rendezvous.  In every state that ticks reach, a warp that was released
from its `round`-th barrier belongs to a block all of whose warps have executed
theirs; whoever leaves a barrier in a tick had its whole block waiting, the
last warp by arriving; and arrivals leave the warps of other blocks alone.
-/
theorem barrier_rendezvous
    [WarpScheduler σ]
    [LawfulWarpScheduler σ]
    {kernel : Kernel}
    {vacant sm : SM σ}
    {blocks : List (ThreadBlock × KernelResourceRequirements)}
    {tally : Tally}
    (isVacant : vacant.Vacant)
    (launch : Launch blocks)
    (ticked : Ticked kernel (admitAll vacant blocks) sm tally) :
    (∀ blockId first second round,
        blockAt sm.warps first = some blockId →
        blockAt sm.warps second = some blockId →
        round ≤ tally.releases first →
        round ≤ tally.arrivals second) ∧
      (∀ (after : SM σ) (memory memory' : MemorySystem) blockId first second,
        sm.tick kernel memory = .ok (after, memory') →
        blockAt sm.warps first = some blockId →
        blockAt sm.warps second = some blockId →
        leaves kernel sm after first = true →
        waitsAt sm.warps second = true ∨
          arrives kernel sm second = true) ∧
      ∀ (arriving after : SM σ) index warp blockId position,
        arriving.warps[index]? = some warp →
        warp.blockId? = some blockId →
        arriving.handleBarrierArrival index = .ok after →
        blockAt arriving.warps position ≠ some blockId →
        after.warps[position]? = arriving.warps[position]? := by
  have balanced := ticked.balanced isVacant launch
  refine ⟨?_, ?_, ?_⟩
  · intro blockId first second round ofFirst ofSecond released
    exact
      released.trans
        (balanced.releases_le_arrivals (ofFirst.trans ofSecond.symm))
  · intro after memory memory' blockId first second ran ofFirst ofSecond left
    have haveBlocks :=
      everyWarpHasBlock_of_identities ticked.identities
        (launch.everyWarpHasBlock isVacant)
    exact
      leaves_together haveBlocks ran left (ofSecond.trans ofFirst.symm)
  · intro arriving after index warp blockId position found ofBlock ran
    exact handleBarrierArrival_elsewhere found ofBlock ran

end Counting

/-- Blocks of one-thread warps can be launched. -/
theorem launch_narrow
    (blockId numWarps : Nat)
    (req : KernelResourceRequirements) :
    Launch [(ThreadBlock.narrow blockId numWarps, req)] where
  wellFormed := by
    intro admitted member
    rw [List.mem_singleton.mp member]
    exact ThreadBlock.narrow_wellFormed blockId numWarps
  distinct := List.nodup_singleton _
  notWaiting := by
    intro admitted member warp ofBlock
    rw [List.mem_singleton.mp member] at ofBlock
    obtain ⟨warpId, _, rfl⟩ := List.mem_map.mp ofBlock
    simp [Warp.ofThreads, Warp.addThread]

/-- A kernel that is one barrier. -/
def meetKernel : Kernel where
  instructions := [⟨.barrier, -1, -1, -1, 0⟩]
  lengthFits := by decide

/-- Two ticks of two warps: both arrive, and both are released. -/
theorem meetKernel_ticks :
    ∃ sm tally,
      Ticked meetKernel
          (admitAll (SM.vacantWith Scheduler.greedy)
            [(.narrow 4 2, ⟨0, 0⟩)])
          sm tally ∧
        sm.warps.map Warp.state = [.ready, .completed] ∧
        tally.releases 0 = 1 ∧
        blockAt sm.warps 0 = some 4 ∧ blockAt sm.warps 1 = some 4 := by
  have computed :
      ((runTicks meetKernel 2
          (admitAll (SM.vacantWith Scheduler.greedy)
            [(.narrow 4 2, ⟨0, 0⟩)])
          ⟨fun _ => 0, fun _ => 0⟩ (.minimal 1)).map fun reached =>
        (reached.1.warps.map Warp.state, reached.2.releases 0,
          blockAt reached.1.warps 0, blockAt reached.1.warps 1)) =
        some ([.ready, .completed], 1, some 4, some 4) := by
    decide +kernel
  obtain ⟨⟨sm, tally⟩, ran, shape⟩ := Option.map_eq_some_iff.mp computed
  simp only [Prod.mk.injEq] at shape
  exact ⟨sm, tally, Ticked.start.runTicks ran, shape⟩

/-- Two warps meet at a barrier, which releases both. -/
theorem barrier_rendezvous_two_warps :
    ∃ (sm : SM Scheduler) (tally : Tally),
      tally.releases 0 = 1 ∧ 1 ≤ tally.arrivals 1 ∧
        sm.warps.map Warp.state = [.ready, .completed] ∧
        Ticked meetKernel
          (admitAll (SM.vacantWith .greedy) [(.narrow 4 2, ⟨0, 0⟩)])
          sm tally := by
  obtain ⟨sm, tally, ticked, states, released, ofFirst, ofSecond⟩ :=
    meetKernel_ticks
  obtain ⟨rounds, _, _⟩ :=
    barrier_rendezvous (SM.vacantWith_vacant _)
      (launch_narrow 4 2 ⟨0, 0⟩) ticked
  exact
    ⟨sm, tally, released, rounds 4 0 1 1 ofFirst ofSecond released.ge,
      states, ticked⟩

end Barrier

end SimSm
