import SimSm.Executor
import SimSm.Library.Outcome

namespace SimSm

/-!
# What one executed instruction can do

Inversion lemmas for the executor.  Each opcode's successful execution is
described once: its effect on the threads, on the control state of the warp
(pc, active mask and SIMT stack) and on the memory system.  Everything later
cites these lemmas and never unfolds the executor.
-/

open Outcome

/-- The fields of a warp that no instruction touches are equal. -/
structure SameShell (before after : Warp) : Prop where
  warpId : after.warpId = before.warpId
  state : after.state = before.state
  stallCyclesRemaining :
    after.stallCyclesRemaining = before.stallCyclesRemaining
  priority : after.priority = before.priority
  readySinceCycle : after.readySinceCycle = before.readySinceCycle
  currentWaitCycles : after.currentWaitCycles = before.currentWaitCycles
  starvationRecorded : after.starvationRecorded = before.starvationRecorded
  threads :
    after.threads.map Thread.identity = before.threads.map Thread.identity

namespace SameShell

theorem refl (warp : Warp) : SameShell warp warp :=
  ⟨rfl, rfl, rfl, rfl, rfl, rfl, rfl, rfl⟩

theorem trans
    {first second third : Warp}
    (earlier : SameShell first second)
    (later : SameShell second third) :
    SameShell first third where
  warpId := later.warpId.trans earlier.warpId
  state := later.state.trans earlier.state
  stallCyclesRemaining :=
    later.stallCyclesRemaining.trans earlier.stallCyclesRemaining
  priority := later.priority.trans earlier.priority
  readySinceCycle := later.readySinceCycle.trans earlier.readySinceCycle
  currentWaitCycles := later.currentWaitCycles.trans earlier.currentWaitCycles
  starvationRecorded :=
    later.starvationRecorded.trans earlier.starvationRecorded
  threads := later.threads.trans earlier.threads

/-- A warp that differs in its control state only has the same shell. -/
theorem of_control
    {first second third : Warp}
    (later : SameShell second third)
    (warpId : second.warpId = first.warpId)
    (state : second.state = first.state)
    (stallCycles :
      second.stallCyclesRemaining = first.stallCyclesRemaining)
    (priority : second.priority = first.priority)
    (readySince : second.readySinceCycle = first.readySinceCycle)
    (waitCycles : second.currentWaitCycles = first.currentWaitCycles)
    (starvation : second.starvationRecorded = first.starvationRecorded)
    (threads : second.threads = first.threads) :
    SameShell first third :=
  trans
    ⟨warpId, state, stallCycles, priority, readySince, waitCycles,
      starvation, by rw [threads]⟩
    later

/-- Instructions keep the number of threads. -/
theorem length_threads
    {before after : Warp}
    (same : SameShell before after) :
    after.threads.length = before.threads.length := by
  have lengths := congrArg List.length same.threads
  simpa using lengths

/-- Instructions keep the identity of the warp. -/
theorem identity
    {before after : Warp}
    (same : SameShell before after) :
    after.identity = before.identity := by
  simp [Warp.identity, same.warpId, same.threads]

end SameShell

/-- A warp's block is determined by its identity. -/
theorem Warp.blockId?_of_identity
    {first second : Warp}
    (same : first.identity = second.identity) :
    first.blockId? = second.blockId? := by
  have sameThreads :
      first.threads.map Thread.identity =
        second.threads.map Thread.identity :=
    congrArg Prod.snd same
  have sameHead :
      first.threads.head?.map Thread.identity =
        second.threads.head?.map Thread.identity := by
    simpa using congrArg List.head? sameThreads
  have viaIdentity
      (warp : Warp) :
      warp.blockId? =
        (warp.threads.head?.map Thread.identity).map fun ids => ids.2.1 := by
    simp [Warp.blockId?, Thread.identity, Function.comp_def]
  rw [viaIdentity, viaIdentity, sameHead]

namespace InstructionExecutor

/-- Thread lists that agree off the active lanes and are related on them. -/
structure ActiveUpdate
    (activeMask : ActiveMask)
    (body : Thread → Except SimError Thread)
    (lane : Nat)
    (before after : List Thread) : Prop where
  length : after.length = before.length
  inRange : ∀ position, position < before.length → lane + position < 32
  updated :
    ∀ {position : Nat} {thread : Thread},
      before[position]? = some thread →
      activeMask.getLsbD (lane + position) = true →
      ∃ changed,
        body thread = .ok changed ∧ after[position]? = some changed
  kept :
    ∀ {position : Nat},
      activeMask.getLsbD (lane + position) = false →
      after[position]? = before[position]?

/-- A successful lane loop updates exactly the active threads. -/
theorem mapActive_ok
    {activeMask : ActiveMask}
    {body : Thread → Except SimError Thread}
    {lane : Nat}
    {before after : List Thread}
    (ran : mapActive activeMask body lane before = (after, .ok ())) :
    ActiveUpdate activeMask body lane before after := by
  induction before generalizing lane after with
  | nil =>
      simp only [mapActive, Prod.mk.injEq] at ran
      obtain ⟨rfl, -⟩ := ran
      exact ⟨rfl, by simp, by simp, by simp⟩
  | cons thread rest inductionHypothesis =>
      have laneInRange : lane < 32 := by
        by_contra outside
        simp [mapActive, ActiveMask.test, outside] at ran
      cases active : activeMask.getLsbD lane with
      | false =>
          simp only [mapActive, ActiveMask.test_of_lt laneInRange,
            active, Prod.mk.injEq] at ran
          obtain ⟨rfl, restRan⟩ := ran
          have restUpdate :=
            @inductionHypothesis (lane + 1) _ (Prod.ext rfl restRan)
          refine ⟨by simp [restUpdate.length], ?_, ?_, ?_⟩
          · intro position inside
            cases position with
            | zero => exact laneInRange
            | succ position =>
                have := restUpdate.inRange position (by simpa using inside)
                omega
          · intro position found lookup isActive
            cases position with
            | zero =>
                rw [Nat.add_zero, active] at isActive
                cases isActive
            | succ position =>
                simp only [List.getElem?_cons_succ] at lookup ⊢
                exact restUpdate.updated lookup
                  (by rwa [Nat.add_assoc, Nat.add_comm 1])
          · intro position inactive
            cases position with
            | zero => simp
            | succ position =>
                simp only [List.getElem?_cons_succ]
                exact restUpdate.kept
                  (by rwa [Nat.add_assoc, Nat.add_comm 1])
      | true =>
          cases changedShape : body thread with
          | error error =>
              simp [mapActive, ActiveMask.test_of_lt laneInRange,
                active, changedShape] at ran
          | ok changed =>
              simp only [mapActive, ActiveMask.test_of_lt laneInRange,
                active, changedShape, Prod.mk.injEq] at ran
              obtain ⟨rfl, restRan⟩ := ran
              have restUpdate :=
                @inductionHypothesis (lane + 1) _ (Prod.ext rfl restRan)
              refine ⟨by simp [restUpdate.length], ?_, ?_, ?_⟩
              · intro position inside
                cases position with
                | zero => exact laneInRange
                | succ position =>
                    have :=
                      restUpdate.inRange position (by simpa using inside)
                    omega
              · intro position found lookup isActive
                cases position with
                | zero =>
                    simp only [List.getElem?_cons_zero,
                      Option.some.injEq] at lookup
                    subst lookup
                    exact ⟨changed, changedShape, by simp⟩
                | succ position =>
                    simp only [List.getElem?_cons_succ] at lookup ⊢
                    exact restUpdate.updated lookup
                      (by rwa [Nat.add_assoc, Nat.add_comm 1])
              · intro position inactive
                cases position with
                | zero =>
                    rw [Nat.add_zero, active] at inactive
                    cases inactive
                | succ position =>
                    simp only [List.getElem?_cons_succ]
                    exact restUpdate.kept
                      (by rwa [Nat.add_assoc, Nat.add_comm 1])

/-- A lane loop whose body cannot fail on an active thread succeeds. -/
theorem mapActive_succeeds
    {activeMask : ActiveMask}
    {body : Thread → Except SimError Thread}
    {lane : Nat}
    {threads : List Thread}
    (inRange : lane + threads.length ≤ 32)
    (succeeds :
      ∀ {position : Nat} {thread : Thread},
        threads[position]? = some thread →
        activeMask.getLsbD (lane + position) = true →
        ∃ changed, body thread = .ok changed) :
    ∃ after, mapActive activeMask body lane threads = (after, .ok ()) := by
  induction threads generalizing lane with
  | nil =>
      exact ⟨[], rfl⟩
  | cons thread rest inductionHypothesis =>
      simp only [List.length_cons] at inRange
      have laneInRange : lane < 32 := by omega
      obtain ⟨restAfter, restRan⟩ :=
        @inductionHypothesis (lane + 1) (by omega)
          (fun {position found} lookup isActive =>
            @succeeds (position + 1) found (by simpa using lookup)
              (by rwa [Nat.add_assoc, Nat.add_comm 1] at isActive))
      cases active : activeMask.getLsbD lane with
      | false =>
          refine ⟨thread :: restAfter, ?_⟩
          simp [mapActive, ActiveMask.test_of_lt laneInRange,
            active, restRan]
      | true =>
          obtain ⟨changed, changedShape⟩ :=
            @succeeds 0 thread rfl (by simpa using active)
          refine ⟨changed :: restAfter, ?_⟩
          simp [mapActive, ActiveMask.test_of_lt laneInRange,
            active, changedShape, restRan]

/-- A body that keeps identities keeps them over the whole loop. -/
theorem ActiveUpdate.map_eq
    {activeMask : ActiveMask}
    {body : Thread → Except SimError Thread}
    {lane : Nat}
    {before after : List Thread}
    (update : ActiveUpdate activeMask body lane before after)
    (project : Thread → α)
    (keeps :
      ∀ {thread changed : Thread},
        body thread = .ok changed →
        project changed = project thread) :
    after.map project = before.map project := by
  apply List.ext_getElem?
  intro position
  simp only [List.getElem?_map]
  cases active : activeMask.getLsbD (lane + position) with
  | false =>
      rw [update.kept active]
  | true =>
      cases lookup : before[position]? with
      | none =>
          have outside : before.length ≤ position :=
            List.getElem?_eq_none_iff.mp lookup
          have missing : after[position]? = none :=
            List.getElem?_eq_none_iff.mpr (by rw [update.length]; exact outside)
          rw [missing]
      | some thread =>
          obtain ⟨changed, changedShape, changedLookup⟩ :=
            update.updated lookup active
          rw [changedLookup]
          simp [keeps changedShape]

/-- A successful lane loop changes the threads only. -/
theorem forActiveThreads_ok
    {activeMask : ActiveMask}
    {body : Thread → Except SimError Thread}
    {before after : Warp × MemorySystem}
    {value : Unit}
    (ran : forActiveThreads activeMask body before = .ok value after) :
    ∃ threads,
      ActiveUpdate activeMask body 0 before.1.threads threads ∧
        after = ({ before.1 with threads := threads }, before.2) := by
  unfold forActiveThreads at ran
  cases shape : mapActive activeMask body 0 before.1.threads with
  | mk threads outcome =>
      cases outcome with
      | error error =>
          simp [shape] at ran
      | ok done =>
          refine ⟨threads, mapActive_ok shape, ?_⟩
          simp only [shape, EStateM.Result.ok.injEq, true_and] at ran
          exact ran.symm

/-- A successful advance sets the pc and the shadow pcs, nothing else. -/
theorem advanceTo_ok
    {activeMask : ActiveMask}
    {pc : Nat}
    {before after : Warp × MemorySystem}
    {value : Unit}
    (ran : advanceTo activeMask pc before = .ok value after) :
    ∃ threads,
      ActiveUpdate activeMask (shadowThread pc) 0 before.1.threads threads ∧
        after =
          ({ before.1 with warpPc := pc, threads := threads }, before.2) := by
  unfold advanceTo modifyWarp at ran
  obtain ⟨_, middle, moved, shadowed⟩ := state_bind_ok.mp ran
  have middleShape := state_modify_ok.mp moved
  subst middleShape
  exact forActiveThreads_ok shadowed

/-- Shadow pcs are no part of a thread's identity. -/
theorem shadowThread_identity
    {pc : Nat}
    {thread changed : Thread}
    (ran : shadowThread pc thread = .ok changed) :
    changed.identity = thread.identity := by
  simp only [shadowThread, Except.ok.injEq] at ran
  simp [← ran, Thread.identity]

/-- The lane loop of the opcodes that only change threads. -/
def threadBody? (inst : Instruction) : Option (Thread → Except SimError Thread) :=
  match inst.opcode with
  | .add => some (arithmeticThread (· + ·) inst)
  | .sub => some (arithmeticThread (· - ·) inst)
  | .mul => some (arithmeticThread (· * ·) inst)
  | .mov => some (movThread inst)
  | .cmp => some (cmpThread inst)
  | _ => none

/-- Lane-loop bodies of instructions keep thread identities. -/
theorem threadBody?_identity
    {inst : Instruction}
    {body : Thread → Except SimError Thread}
    (shape : threadBody? inst = some body)
    {thread changed : Thread}
    (ran : body thread = .ok changed) :
    changed.identity = thread.identity := by
  have arithmeticCase
      (operation : Word → Word → Word)
      (arithmetic : arithmeticThread operation inst thread = .ok changed) :
      changed.identity = thread.identity := by
    simp only [arithmeticThread, except_bind_ok] at arithmetic
    obtain ⟨_, _, _, _, registers, _, returned⟩ := arithmetic
    cases returned
    rfl
  unfold threadBody? at shape
  split at shape <;> cases shape
  · exact arithmeticCase _ ran
  · exact arithmeticCase _ ran
  · exact arithmeticCase _ ran
  · unfold movThread at ran
    split at ran
    · obtain ⟨registers, _, returned⟩ := except_bind_ok.mp ran
      cases returned
      rfl
    · obtain ⟨_, _, rest⟩ := except_bind_ok.mp ran
      obtain ⟨registers, _, returned⟩ := except_bind_ok.mp rest
      cases returned
      rfl
  · simp only [cmpThread, except_bind_ok] at ran
    obtain ⟨_, _, _, _, returned⟩ := ran
    cases returned
    rfl

/-- The three memory opcodes. -/
def IsMemory (inst : Instruction) : Prop :=
  inst.opcode = .load ∨ inst.opcode = .store ∨ inst.opcode = .atomicAdd

/-- `taken` are the active lanes of a warp whose predicate is set. -/
def TakenLanes (warp : Warp) (taken : ActiveMask) : Prop :=
  ∀ lane,
    taken.getLsbD lane = true ↔
      warp.activeMask.getLsbD lane = true ∧
        ∃ thread,
          warp.threads[lane]? = some thread ∧ thread.predicate = true

/-- What one instruction does to the pc, the active mask and the SIMT stack. -/
inductive ControlStep (inst : Instruction) (before after : Warp) : Prop where
  | fallThrough
      (straight : (threadBody? inst).isSome ∨ IsMemory inst)
      (pc : after.warpPc = nextPc before.warpPc)
      (mask : after.activeMask = before.activeMask)
      (stack : after.simtStack = before.simtStack)
  | barrier
      (opcode : inst.opcode = .barrier)
      (convergent : before.activeMask.count = before.threads.length)
      (pc : after.warpPc = nextPc before.warpPc)
      (mask : after.activeMask = before.activeMask)
      (stack : after.simtStack = before.simtStack)
  | branchNone
      (opcode : inst.opcode = .branch)
      (taken : TakenLanes before 0)
      (pc : after.warpPc = nextPc before.warpPc)
      (mask : after.activeMask = before.activeMask)
      (stack : after.simtStack = before.simtStack)
  | branchAll
      (opcode : inst.opcode = .branch)
      (some : before.activeMask ≠ 0)
      (taken : TakenLanes before before.activeMask)
      (pc : after.warpPc = branchPc before.warpPc inst.immediate)
      (mask : after.activeMask = before.activeMask)
      (stack : after.simtStack = before.simtStack)
  | diverge
      (opcode : inst.opcode = .branch)
      (taken : TakenLanes before after.activeMask)
      (some : after.activeMask ≠ 0)
      (proper : after.activeMask ≠ before.activeMask)
      (pc : after.warpPc = branchPc before.warpPc inst.immediate)
      (stack :
        after.simtStack =
          { activeMask := before.activeMask &&& ~~~after.activeMask
            targetPc := nextPc before.warpPc
            reconvergencePc := before.reconvergencePc } :: before.simtStack)
  | ssy
      (opcode : inst.opcode = .ssy)
      (pc : after.warpPc = nextPc before.warpPc)
      (mask : after.activeMask = before.activeMask)
      (stack :
        after.simtStack =
          { activeMask := before.activeMask
            targetPc := branchPc before.warpPc inst.immediate
            reconvergencePc := before.reconvergencePc } :: before.simtStack)
  | syncToken
      (opcode : inst.opcode = .sync)
      (entry : SIMTStackEntry)
      (popped : before.simtStack = entry :: after.simtStack)
      (target : entry.targetPc = before.warpPc)
      (pc : after.warpPc = nextPc before.warpPc)
      (mask : after.activeMask = entry.activeMask)
  | syncDeferred
      (opcode : inst.opcode = .sync)
      (entry : SIMTStackEntry)
      (popped : before.simtStack = entry :: after.simtStack)
      (target : entry.targetPc ≠ before.warpPc)
      (pc : after.warpPc = entry.targetPc)
      (mask : after.activeMask = entry.activeMask)

/-- The taken mask collects the active lanes whose predicate is set. -/
theorem takenMask_ok
    {activeMask initial taken : ActiveMask}
    {lane : Nat}
    {threads : List Thread}
    (computed : takenMask activeMask lane threads initial = .ok taken) :
    ∀ query,
      taken.getLsbD query = true ↔
        initial.getLsbD query = true ∨
          (lane ≤ query ∧ activeMask.getLsbD query = true ∧
            ∃ thread,
              threads[query - lane]? = some thread ∧
                thread.predicate = true) := by
  induction threads generalizing lane initial with
  | nil =>
      simp only [takenMask, Except.ok.injEq] at computed
      subst computed
      simp
  | cons thread rest inductionHypothesis =>
      have laneInRange : lane < 32 := by
        by_contra outside
        simp [takenMask, ActiveMask.test, outside, bind, Except.bind]
          at computed
      simp only [takenMask, ActiveMask.test_of_lt laneInRange, bind,
        Except.bind] at computed
      intro query
      rw [inductionHypothesis computed query]
      have headBit :
          (if (activeMask.getLsbD lane && thread.predicate) = true then
              initial.set lane
            else
              initial).getLsbD query = true ↔
            initial.getLsbD query = true ∨
              (query = lane ∧ activeMask.getLsbD lane = true ∧
                thread.predicate = true) := by
        split
        · rename_i both
          simp only [Bool.and_eq_true] at both
          simp [laneInRange, both]
        · rename_i neither
          simp only [Bool.and_eq_true] at neither
          simp only [neither, and_false, or_false]
      rw [headBit, or_assoc]
      apply or_congr_right
      constructor
      · rintro (⟨rfl, isActive, holds⟩ | ⟨later, isActive, found, lookup, holds⟩)
        · exact ⟨Nat.le_refl _, isActive, thread, by simp, holds⟩
        · refine ⟨by omega, isActive, found, ?_, holds⟩
          rw [show query - lane = (query - (lane + 1)) + 1 by omega]
          simpa using lookup
      · rintro ⟨later, isActive, found, lookup, holds⟩
        by_cases same : query = lane
        · subst same
          simp only [Nat.sub_self, List.getElem?_cons_zero,
            Option.some.injEq] at lookup
          subst lookup
          exact Or.inl ⟨rfl, isActive, holds⟩
        · refine Or.inr ⟨by omega, isActive, found, ?_, holds⟩
          rw [show query - lane = (query - (lane + 1)) + 1 by omega] at lookup
          simpa using lookup

/-- On at most thirty-two threads the taken mask is always computed. -/
theorem takenMask_succeeds
    {activeMask initial : ActiveMask}
    {lane : Nat}
    {threads : List Thread}
    (inRange : lane + threads.length ≤ 32) :
    ∃ taken, takenMask activeMask lane threads initial = .ok taken := by
  induction threads generalizing lane initial with
  | nil =>
      exact ⟨initial, rfl⟩
  | cons thread rest inductionHypothesis =>
      simp only [List.length_cons] at inRange
      have laneInRange : lane < 32 := by omega
      simp only [takenMask, ActiveMask.test_of_lt laneInRange, bind,
        Except.bind]
      exact inductionHypothesis (by omega)

/-- The taken mask computed from a warp is its set of taken lanes. -/
theorem takenMask_takenLanes
    {warp : Warp}
    {taken : ActiveMask}
    (computed : takenMask warp.activeMask 0 warp.threads 0 = .ok taken) :
    TakenLanes warp taken := by
  intro lane
  simpa using takenMask_ok computed lane

/-- Loaded values are written without touching thread identities. -/
theorem writeLanes_identity
    {dst : Int}
    {values : List (Nat × Word)}
    {before after : List Thread}
    {outcome : Except SimError Unit}
    (ran : writeLanes dst values before = (after, outcome)) :
    after.map Thread.identity = before.map Thread.identity := by
  induction values generalizing before with
  | nil =>
      simp only [writeLanes, Prod.mk.injEq] at ran
      rw [← ran.1]
  | cons first rest inductionHypothesis =>
      unfold writeLanes at ran
      split at ran
      · exact inductionHypothesis ran
      · rename_i thread lookup
        split at ran
        · simp only [Prod.mk.injEq] at ran
          rw [← ran.1]
        · rename_i registers written
          rw [inductionHypothesis ran]
          apply List.ext_getElem?
          intro position
          simp only [List.getElem?_map, List.getElem?_set]
          split
          · rename_i same
            subst same
            rw [lookup]
            split
            · rfl
            · rename_i outside
              have inside := (List.getElem?_eq_some_iff.mp lookup).1
              exact (outside inside).elim
          · rfl

/-- The facts that hold of every successfully executed instruction. -/
structure Executed
    (inst : Instruction)
    (before : Warp × MemorySystem)
    (result : ExecutionResult)
    (after : Warp × MemorySystem) : Prop where
  shell : SameShell before.1 after.1
  control : ControlStep inst before.1 after.1
  barrier : result.status = .barrierReached ↔ inst.opcode = .barrier
  lanes : before.1.threads.length ≤ 32

/-- A lane loop over a thread list bounds its length. -/
theorem ActiveUpdate.length_le
    {activeMask : ActiveMask}
    {body : Thread → Except SimError Thread}
    {before after : List Thread}
    (update : ActiveUpdate activeMask body 0 before after) :
    before.length ≤ 32 := by
  by_contra tooLong
  have := update.inRange 32 (by omega)
  omega

/-- An advance keeps the shell of the warp. -/
theorem advanceTo_shell
    {activeMask : ActiveMask}
    {pc : Nat}
    {before after : Warp × MemorySystem}
    {value : Unit}
    (ran : advanceTo activeMask pc before = .ok value after) :
    SameShell before.1 after.1 ∧
      after.1.warpPc = pc ∧
      after.1.activeMask = before.1.activeMask ∧
      after.1.simtStack = before.1.simtStack ∧
      before.1.threads.length ≤ 32 := by
  obtain ⟨threads, update, shape⟩ := advanceTo_ok ran
  subst shape
  exact
    ⟨⟨rfl, rfl, rfl, rfl, rfl, rfl, rfl,
        update.map_eq Thread.identity shadowThread_identity⟩,
      rfl, rfl, rfl, update.length_le⟩

/-- Instructions that only change threads fall through. -/
theorem executeThreads_ok
    {body : Thread → Except SimError Thread}
    {before after : Warp × MemorySystem}
    {result : ExecutionResult}
    (ran : executeThreads before.1 body before = .ok result after) :
    result = {} ∧ after.2 = before.2 ∧
      ∃ threads,
        ActiveUpdate before.1.activeMask body 0 before.1.threads threads ∧
          ActiveUpdate before.1.activeMask
            (shadowThread (nextPc before.1.warpPc)) 0
            threads after.1.threads ∧
          after.1 =
            { before.1 with
              warpPc := nextPc before.1.warpPc
              threads := after.1.threads } := by
  unfold executeThreads at ran
  obtain ⟨_, middle, looped, rest⟩ := state_bind_ok.mp ran
  obtain ⟨_, final, advanced, returned⟩ := state_bind_ok.mp rest
  obtain ⟨threads, update, middleShape⟩ := forActiveThreads_ok looped
  obtain ⟨shadowed, shadowUpdate, finalShape⟩ := advanceTo_ok advanced
  obtain ⟨resultShape, afterShape⟩ := state_pure_ok.mp returned
  subst middleShape
  subst finalShape
  subst afterShape
  exact ⟨resultShape.symm, rfl, threads, update, shadowUpdate, rfl⟩

/-- Execution is the opcode switch on the warp it starts from. -/
theorem execute_eq
    (inst : Instruction)
    (state : Warp × MemorySystem) :
    execute inst state = executeOpcode inst state.1 state :=
  rfl

/-- An opcode with a lane-loop body runs that loop. -/
theorem execute_of_threadBody?
    {inst : Instruction}
    {body : Thread → Except SimError Thread}
    (shape : threadBody? inst = some body)
    (state : Warp × MemorySystem) :
    execute inst state = executeThreads state.1 body state := by
  rw [execute_eq]
  unfold threadBody? at shape
  unfold executeOpcode
  cases opcode : inst.opcode <;> simp only [opcode] at shape <;>
    cases shape <;> rfl

/-- Lane-loop opcodes are neither memory opcodes nor control opcodes. -/
theorem threadBody?_opcode
    {inst : Instruction}
    {body : Thread → Except SimError Thread}
    (shape : threadBody? inst = some body) :
    inst.opcode = .add ∨ inst.opcode = .sub ∨ inst.opcode = .mul ∨
      inst.opcode = .mov ∨ inst.opcode = .cmp := by
  unfold threadBody? at shape
  cases opcode : inst.opcode <;> simp [opcode] at shape <;> simp

private theorem executed_threads
    {inst : Instruction}
    {body : Thread → Except SimError Thread}
    (shape : threadBody? inst = some body)
    {before after : Warp × MemorySystem}
    {result : ExecutionResult}
    (ran : execute inst before = .ok result after) :
    Executed inst before result after := by
  rw [execute_of_threadBody? shape] at ran
  obtain ⟨resultShape, memoryShape, threads, update, shadowUpdate, afterShape⟩ :=
    executeThreads_ok ran
  have notBarrier : inst.opcode ≠ .barrier := by
    rcases threadBody?_opcode shape with
      isOp | isOp | isOp | isOp | isOp <;> simp [isOp]
  refine ⟨?_, ?_, ?_, update.length_le⟩
  · rw [afterShape]
    refine ⟨rfl, rfl, rfl, rfl, rfl, rfl, rfl, ?_⟩
    exact
      (shadowUpdate.map_eq Thread.identity shadowThread_identity).trans
        (update.map_eq Thread.identity
          (fun changed => threadBody?_identity shape changed))
  · refine .fallThrough (Or.inl (by simp [shape])) ?_ ?_ ?_ <;>
      rw [afterShape]
  · simp [resultShape, notBarrier]

/-- A memory operation lifted to the executor keeps the warp. -/
theorem onMemory_ok
    {operation : MemoryM α}
    {before after : Warp × MemorySystem}
    {value : α}
    (ran : onMemory operation before = .ok value after) :
    after.1 = before.1 ∧ operation before.2 = .ok value after.2 := by
  unfold onMemory at ran
  cases shape : operation before.2 with
  | error error memory =>
      simp [shape] at ran
  | ok found memory =>
      simp only [shape, EStateM.Result.ok.injEq] at ran
      obtain ⟨rfl, rfl⟩ := ran
      exact ⟨rfl, rfl⟩

/-- A lifted exception that did not occur keeps the state. -/
theorem liftExcept_ok
    {result : Except SimError α}
    {before after : σ}
    {value : α}
    (ran : liftExcept result before = .ok value after) :
    result = .ok value ∧ after = before := by
  unfold liftExcept at ran
  cases result with
  | error error =>
      simp at ran
  | ok found =>
      simp only [EStateM.Result.ok.injEq] at ran
      obtain ⟨rfl, rfl⟩ := ran
      exact ⟨rfl, rfl⟩

/-- Writing loaded values back changes the threads only. -/
theorem writeBack_ok
    {dst : Int}
    {values : List (Nat × Word)}
    {before after : Warp × MemorySystem}
    {value : Unit}
    (ran : writeBack dst values before = .ok value after) :
    ∃ threads,
      writeLanes dst values before.1.threads = (threads, .ok ()) ∧
        after = ({ before.1 with threads := threads }, before.2) := by
  unfold writeBack at ran
  cases shape : writeLanes dst values before.1.threads with
  | mk threads outcome =>
      cases outcome with
      | error error =>
          simp [shape] at ran
      | ok done =>
          simp only [shape, EStateM.Result.ok.injEq, true_and] at ran
          exact ⟨threads, rfl, ran.symm⟩

/-- Loading changes threads and memory, and never reports a barrier. -/
theorem loadLanes_ok
    {inst : Instruction}
    {lanes : List (Nat × Nat)}
    {before after : Warp × MemorySystem}
    {result : ExecutionResult}
    (ran : loadLanes inst lanes before = .ok result after) :
    result.status = .completed ∧
      after.1.threads.map Thread.identity =
        before.1.threads.map Thread.identity ∧
      after.1 = { before.1 with threads := after.1.threads } := by
  cases lanes with
  | nil =>
      obtain ⟨resultShape, afterShape⟩ := state_pure_ok.mp ran
      subst resultShape
      subst afterShape
      exact ⟨rfl, rfl, rfl⟩
  | cons first rest =>
      obtain ⟨values, reached, performed, later⟩ := state_bind_ok.mp ran
      obtain ⟨_, written, wrote, returned⟩ := state_bind_ok.mp later
      obtain ⟨warpKept, -⟩ := onMemory_ok performed
      obtain ⟨resultShape, afterShape⟩ := state_pure_ok.mp returned
      obtain ⟨threads, lanesWritten, writtenShape⟩ := writeBack_ok wrote
      subst resultShape
      subst afterShape
      subst writtenShape
      rw [warpKept] at lanesWritten ⊢
      exact ⟨rfl, writeLanes_identity lanesWritten, rfl⟩

/-- Storing changes memory only, and never reports a barrier. -/
theorem storeLanes_ok
    {operation : List (Nat × Word) → MemoryM WarpMemoryResult}
    {accesses : List (Nat × Word)}
    {before after : Warp × MemorySystem}
    {result : ExecutionResult}
    (ran : storeLanes operation accesses before = .ok result after) :
    result.status = .completed ∧ after.1 = before.1 := by
  cases accesses with
  | nil =>
      obtain ⟨resultShape, afterShape⟩ := state_pure_ok.mp ran
      subst resultShape
      subst afterShape
      exact ⟨rfl, rfl⟩
  | cons first rest =>
      obtain ⟨timing, reached, performed, returned⟩ := state_bind_ok.mp ran
      obtain ⟨warpKept, -⟩ := onMemory_ok performed
      obtain ⟨resultShape, afterShape⟩ := state_pure_ok.mp returned
      subst resultShape
      subst afterShape
      exact ⟨rfl, warpKept⟩

private theorem executed_load
    {inst : Instruction}
    (opcode : inst.opcode = .load)
    {before after : Warp × MemorySystem}
    {result : ExecutionResult}
    (ran : executeLoad inst before.1 before = .ok result after) :
    Executed inst before result after := by
  unfold executeLoad at ran
  obtain ⟨lanes, entry, gathered, rest⟩ := state_bind_ok.mp ran
  obtain ⟨-, entryShape⟩ := liftExcept_ok gathered
  subst entryShape
  obtain ⟨loaded, middle, accessed, rest⟩ := state_bind_ok.mp rest
  obtain ⟨_, final, advanced, returned⟩ := state_bind_ok.mp rest
  obtain ⟨resultShape, afterShape⟩ := state_pure_ok.mp returned
  subst resultShape
  subst afterShape
  obtain ⟨status, identities, middleShape⟩ := loadLanes_ok accessed
  obtain ⟨advancedShell, pc, mask, stack, lengthBound⟩ :=
    advanceTo_shell advanced
  have shell : SameShell entry.1 middle.1 := by
    rw [middleShape]
    exact ⟨rfl, rfl, rfl, rfl, rfl, rfl, rfl, identities⟩
  refine ⟨shell.trans advancedShell, ?_, ?_, ?_⟩
  · refine .fallThrough (Or.inr (Or.inl opcode)) pc ?_ ?_
    · rw [mask, middleShape]
    · rw [stack, middleShape]
  · simp [status, opcode]
  · rw [← shell.length_threads]
    exact lengthBound

private theorem executed_store
    {inst : Instruction}
    (opcode : inst.opcode = .store ∨ inst.opcode = .atomicAdd)
    {operation : List (Nat × Word) → MemoryM WarpMemoryResult}
    {before after : Warp × MemorySystem}
    {result : ExecutionResult}
    (ran : executeStore operation inst before.1 before = .ok result after) :
    Executed inst before result after := by
  unfold executeStore at ran
  obtain ⟨lanes, entry, gathered, rest⟩ := state_bind_ok.mp ran
  obtain ⟨-, entryShape⟩ := liftExcept_ok gathered
  subst entryShape
  obtain ⟨stored, middle, accessed, rest⟩ := state_bind_ok.mp rest
  obtain ⟨_, final, advanced, returned⟩ := state_bind_ok.mp rest
  obtain ⟨resultShape, afterShape⟩ := state_pure_ok.mp returned
  subst resultShape
  subst afterShape
  obtain ⟨status, warpKept⟩ := storeLanes_ok accessed
  obtain ⟨shell, pc, mask, stack, lengthBound⟩ := advanceTo_shell advanced
  rw [warpKept] at shell mask stack lengthBound
  refine ⟨shell, ?_, ?_, lengthBound⟩
  · exact .fallThrough (Or.inr (Or.inr opcode)) pc mask stack
  · rcases opcode with isStore | isAtomic
    · simp [status, isStore]
    · simp [status, isAtomic]

private theorem executed_branch
    {inst : Instruction}
    (opcode : inst.opcode = .branch)
    {before after : Warp × MemorySystem}
    {result : ExecutionResult}
    (ran : executeBranch inst before.1 before = .ok result after) :
    Executed inst before result after := by
  unfold executeBranch at ran
  obtain ⟨taken, entry, computed, rest⟩ := state_bind_ok.mp ran
  obtain ⟨computed, entryShape⟩ := liftExcept_ok computed
  subst entryShape
  have takenLanes := takenMask_takenLanes computed
  split at rest
  · rename_i none
    subst none
    obtain ⟨_, final, advanced, returned⟩ := state_bind_ok.mp rest
    obtain ⟨resultShape, afterShape⟩ := state_pure_ok.mp returned
    subst resultShape
    subst afterShape
    obtain ⟨shell, pc, mask, stack, lengthBound⟩ := advanceTo_shell advanced
    exact ⟨shell, .branchNone opcode takenLanes pc mask stack,
      by simp [opcode], lengthBound⟩
  · rename_i some
    split at rest
    · rename_i all
      subst all
      obtain ⟨_, final, advanced, returned⟩ := state_bind_ok.mp rest
      obtain ⟨resultShape, afterShape⟩ := state_pure_ok.mp returned
      subst resultShape
      subst afterShape
      obtain ⟨shell, pc, mask, stack, lengthBound⟩ := advanceTo_shell advanced
      exact ⟨shell, .branchAll opcode some takenLanes pc mask stack,
        by simp [opcode], lengthBound⟩
    · rename_i proper
      obtain ⟨_, pushed, modified, rest⟩ := state_bind_ok.mp rest
      obtain ⟨_, final, advanced, returned⟩ := state_bind_ok.mp rest
      obtain ⟨resultShape, afterShape⟩ := state_pure_ok.mp returned
      have pushedShape := state_modify_ok.mp modified
      subst resultShape
      subst afterShape
      obtain ⟨shell, pc, mask, stack, lengthBound⟩ := advanceTo_shell advanced
      subst pushedShape
      have maskIsTaken : final.1.activeMask = taken := mask
      refine ⟨shell.of_control rfl rfl rfl rfl rfl rfl rfl rfl, ?_,
        by simp [opcode], lengthBound⟩
      refine .diverge opcode ?_ ?_ ?_ pc ?_
      · rw [maskIsTaken]
        exact takenLanes
      · rw [maskIsTaken]
        exact some
      · rw [maskIsTaken]
        exact proper
      · rw [maskIsTaken]
        exact stack

private theorem executed_ssy
    {inst : Instruction}
    (opcode : inst.opcode = .ssy)
    {before after : Warp × MemorySystem}
    {result : ExecutionResult}
    (ran : executeSsy inst before.1 before = .ok result after) :
    Executed inst before result after := by
  unfold executeSsy at ran
  obtain ⟨_, pushed, modified, rest⟩ := state_bind_ok.mp ran
  obtain ⟨_, final, advanced, returned⟩ := state_bind_ok.mp rest
  obtain ⟨resultShape, afterShape⟩ := state_pure_ok.mp returned
  have pushedShape := state_modify_ok.mp modified
  subst resultShape
  subst afterShape
  obtain ⟨shell, pc, mask, stack, lengthBound⟩ := advanceTo_shell advanced
  subst pushedShape
  exact ⟨shell.of_control rfl rfl rfl rfl rfl rfl rfl rfl,
    .ssy opcode pc mask stack, by simp [opcode], lengthBound⟩

private theorem executed_sync
    {inst : Instruction}
    (opcode : inst.opcode = .sync)
    {before after : Warp × MemorySystem}
    {result : ExecutionResult}
    (ran : executeSync before.1 before = .ok result after) :
    Executed inst before result after := by
  unfold executeSync Warp.popSimtStack at ran
  cases stackShape : before.1.simtStack with
  | nil =>
      rw [stackShape] at ran
      exact (state_throw_not_ok ran).elim
  | cons entry others =>
      rw [stackShape] at ran
      obtain ⟨_, resumed, modified, rest⟩ := state_bind_ok.mp ran
      obtain ⟨_, final, advanced, returned⟩ := state_bind_ok.mp rest
      obtain ⟨resultShape, afterShape⟩ := state_pure_ok.mp returned
      have resumedShape := state_modify_ok.mp modified
      subst resultShape
      subst afterShape
      obtain ⟨shell, pc, mask, stack, lengthBound⟩ := advanceTo_shell advanced
      subst resumedShape
      have stackIsRest : final.1.simtStack = others := stack
      refine ⟨shell.of_control rfl rfl rfl rfl rfl rfl rfl rfl, ?_,
        by simp [opcode], lengthBound⟩
      by_cases isToken : entry.targetPc = before.1.warpPc
      · refine .syncToken opcode entry ?_ isToken ?_ mask
        · rw [stackIsRest]
          exact stackShape
        · simpa [isToken] using pc
      · refine .syncDeferred opcode entry ?_ isToken ?_ mask
        · rw [stackIsRest]
          exact stackShape
        · simpa [isToken] using pc

private theorem executed_barrier
    {inst : Instruction}
    (opcode : inst.opcode = .barrier)
    {before after : Warp × MemorySystem}
    {result : ExecutionResult}
    (ran : executeBarrier before.1 before = .ok result after) :
    Executed inst before result after := by
  unfold executeBarrier at ran
  split at ran
  · exact (state_throw_not_ok ran).elim
  · rename_i convergent
    obtain ⟨_, final, advanced, returned⟩ := state_bind_ok.mp ran
    obtain ⟨resultShape, afterShape⟩ := state_pure_ok.mp returned
    subst resultShape
    subst afterShape
    obtain ⟨shell, pc, mask, stack, lengthBound⟩ := advanceTo_shell advanced
    exact ⟨shell,
      .barrier opcode (not_not.mp convergent) pc mask stack,
      by simp [opcode], lengthBound⟩

/-- Every successfully executed instruction satisfies `Executed`. -/
theorem execute_ok
    {inst : Instruction}
    {before after : Warp × MemorySystem}
    {result : ExecutionResult}
    (ran : execute inst before = .ok result after) :
    Executed inst before result after := by
  cases opcode : inst.opcode with
  | add | sub | mul | mov | cmp =>
      exact executed_threads (by rw [threadBody?, opcode]) ran
  | load =>
      simp only [execute_eq, executeOpcode, opcode] at ran
      exact executed_load opcode ran
  | store =>
      simp only [execute_eq, executeOpcode, opcode] at ran
      exact executed_store (Or.inl opcode) ran
  | atomicAdd =>
      simp only [execute_eq, executeOpcode, opcode] at ran
      exact executed_store (Or.inr opcode) ran
  | branch =>
      simp only [execute_eq, executeOpcode, opcode] at ran
      exact executed_branch opcode ran
  | ssy =>
      simp only [execute_eq, executeOpcode, opcode] at ran
      exact executed_ssy opcode ran
  | sync =>
      simp only [execute_eq, executeOpcode, opcode] at ran
      exact executed_sync opcode ran
  | barrier =>
      simp only [execute_eq, executeOpcode, opcode] at ran
      exact executed_barrier opcode ran
  | unknown =>
      simp only [execute_eq, executeOpcode, opcode] at ran
      exact (state_throw_not_ok ran).elim

end InstructionExecutor

end SimSm
