import SimSm.Accounting
import SimSm.Dispatch
import SimSm.Grids

namespace SimSm

/-!
# Age across dispatch waves

Oldest first compares the stored `ready_since_cycle` of the warps.  A stall and
a barrier stamp the field when they end; admission copies it in as the grid has
it.  Beside every warp an age is kept that says since when it really is ready.
-/

namespace DispatchAge

/--
The readings of the cycle counter when the block of a warp was admitted, and
when the warp last became ready on its multiprocessor.
-/
structure Age where
  admitted : Nat
  since : Nat
  deriving DecidableEq

namespace Age

/-- A warp that is copied in is ready, if at all, since that cycle. -/
def copied (cycle : Nat) : Age where
  admitted := cycle
  since := cycle

/-- A warp that becomes ready is ready since that cycle. -/
def observe
    (cycle : Nat)
    (before after : Option WarpState)
    (age : Age) :
    Age :=
  if before ≠ some .ready ∧ after = some .ready then
    { age with since := cycle }
  else
    age

end Age

/-- The state of the warp at a position. -/
def stateAt (warps : List Warp) (position : Nat) : Option WarpState :=
  warps[position]?.map Warp.state

/-- Whether the warp at a position executes a barrier in the next tick. -/
def arrives (kernel : Kernel) (sm : SM Scheduler) (position : Nat) : Bool :=
  sm.issued?.any fun issued =>
    issued.1 == position &&
      (kernel.fetch? issued.2.warpPc).any fun inst =>
        inst.opcode == .barrier

/-- The states that an issue finds: a warp waits once it has arrived. -/
def arrivedAt
    (kernel : Kernel)
    (sm : SM Scheduler)
    (position : Nat) :
    Option WarpState :=
  if arrives kernel sm position then
    some .stalledAtBarrier
  else
    stateAt sm.tickStalls.warps position

/-- The ages at the selection of the next tick: some stalls have ended. -/
def stalledAges (sm : SM Scheduler) (ages : List Age) : List Age :=
  ages.mapIdx fun position =>
    Age.observe sm.counters.cycles (stateAt sm.warps position)
      (stateAt sm.tickStalls.warps position)

/-- The ages after a tick: some warps have been released from a barrier. -/
def tickedAges
    (kernel : Kernel)
    (before after : SM Scheduler)
    (ages : List Age) :
    List Age :=
  if before.isCompleted then
    ages
  else
    (stalledAges before ages).mapIdx fun position =>
      Age.observe (before.counters.cycles + 1)
        (arrivedAt kernel before position) (stateAt after.warps position)

/-- The ages once blocks have been admitted: the new warps were copied in. -/
def admittedAges (sm : SM Scheduler) (ages : List Age) : List Age :=
  ages ++
    List.replicate (sm.warps.length - ages.length)
      (.copied sm.counters.cycles)

/--
An admission: the reading of the cycle counter, the warps that stay with their
ages, and the warps that are copied in.
-/
structure Admission where
  cycle : Nat
  resident : List (Warp × Age)
  admitted : List Warp

namespace Admission

/-- The admission between two states of a multiprocessor. -/
def between (before after : SM Scheduler) (ages : List Age) : Admission where
  cycle := after.counters.cycles
  resident := before.warps.zip ages
  admitted := after.warps.drop before.warps.length

/--
No ready warp is copied in with a stamp from later, or with one that puts it
before a warp that has been waiting since an earlier cycle.
-/
def InOrder (admission : Admission) : Prop :=
  ∀ warp ∈ admission.admitted,
    warp.state = .ready →
    warp.readySinceCycle ≤ admission.cycle ∧
      ∀ waiting ∈ admission.resident,
        waiting.1.state = .ready →
        waiting.2.since < admission.cycle →
        olderThan warp waiting.1 = false

instance (admission : Admission) : Decidable admission.InOrder :=
  inferInstanceAs (Decidable (∀ warp ∈ _, _))

end Admission

/-! ## Runs -/

/--
The states of a GPU run from which the tick phases start, with the state of one
multiprocessor and the ages of its warps, while its admissions are admissible.
-/
inductive Run
    (admissible : Admission → Prop)
    (kernel : Kernel)
    (grid : Grid)
    (config : SystemConfig)
    (req : KernelResourceRequirements)
    (smId : Nat) :
    GPU Scheduler → SM Scheduler → List Age → Prop where
  | launched
      {gpu launched refilled : GPU Scheduler}
      {first sm : SM Scheduler}
      (scheduled : ∀ sm ∈ gpu.sms, sm.scheduler = some .oldestFirst)
      (launches : gpu.launchKernel grid config req = .ok launched)
      (refills : launched.refill = .ok refilled)
      (isFirst : launched.sms[smId]? = some first)
      (isSm : refilled.sms[smId]? = some sm)
      (admitsFirst : admissible ⟨first.counters.cycles, [], first.warps⟩)
      (admits :
        admissible
          (.between first.releaseCompletedBlocks sm
            (first.retain (admittedAges first [])))) :
      Run admissible kernel grid config req smId refilled sm
        (admittedAges sm (first.retain (admittedAges first [])))
  | iterated
      {gpu refilled : GPU Scheduler}
      {before ticked sm : SM Scheduler}
      {ages : List Age}
      {sms : List (SM Scheduler)}
      {l2Cache : Cache}
      {globalMemory : GlobalMemory}
      (earlier : Run admissible kernel grid config req smId gpu before ages)
      (ticks :
        GPU.tickSms kernel gpu.config.memoryAccessConfig gpu.sms
            gpu.l2Cache gpu.globalMemory =
          .ok (false, sms, l2Cache, globalMemory))
      (isTicked : sms[smId]? = some ticked)
      (refills :
        { gpu with
            sms := sms
            l2Cache := l2Cache
            globalMemory := globalMemory : GPU Scheduler }.refill =
          .ok refilled)
      (isSm : refilled.sms[smId]? = some sm)
      (admits :
        admissible
          (.between ticked.releaseCompletedBlocks sm
            (ticked.retain (tickedAges kernel before ticked ages)))) :
      Run admissible kernel grid config req smId refilled sm
        (admittedAges sm
          (ticked.retain (tickedAges kernel before ticked ages)))

/-- The warp at a position is ready at the next selection, and of an age. -/
def ReadyAged
    (sm : SM Scheduler)
    (ages : List Age)
    (position : Nat)
    (age : Age) : Prop :=
  ReadyAt sm.tickStalls.warps position ∧
    (stalledAges sm ages)[position]? = some age

/--
The next selection respects age: no other ready warp is ready since a strictly
earlier cycle, and none was when the block of the selected one was admitted.
-/
structure RespectsAge (sm : SM Scheduler) (ages : List Age) : Prop where
  oldest :
    ∀ selected other age otherAge,
      sm.selected? = some selected →
      ReadyAged sm ages selected age →
      ReadyAged sm ages other otherAge →
      age.since ≤ otherAge.since
  waves :
    ∀ selected other age otherAge,
      sm.selected? = some selected →
      ReadyAged sm ages selected age →
      ReadyAged sm ages other otherAge →
      ¬ otherAge.since < age.admitted

/-! ## Stamps -/

/-- What a stored stamp says about the age of its warp. -/
structure Stamped (cycle : Nat) (warp : Warp) (age : Age) : Prop where
  admitted : age.admitted ≤ age.since
  past : age.since ≤ cycle
  stamp : warp.state = .ready → warp.readySinceCycle ≤ age.since

/-- Of two warps the policy prefers the one that has been ready longer. -/
def InTurn (first second : Warp × Age) : Prop :=
  first.1.state = .ready →
  second.1.state = .ready →
  (first.2.since < second.2.since →
      olderThan second.1 first.1 = false) ∧
    (second.2.since < first.2.since → olderThan second.1 first.1 = true)

/-- The stored order of the ready warps is that of their ages. -/
def Ordered (warps : List Warp) (ages : List Age) : Prop :=
  (warps.zip ages).Pairwise InTurn

/-- A change of a warp that was held in some state stamps it as it should. -/
structure Restamps
    (cycle : Nat)
    (held : Option WarpState)
    (before after : Warp) : Prop where
  kept :
    held = some .ready →
    after.state = .ready →
    before.state = .ready ∧ after.readySinceCycle = before.readySinceCycle
  woken :
    held ≠ some .ready →
    after.state = .ready →
    after.readySinceCycle = cycle

/-- The step lemma: an age that is observed goes with the new stamp. -/
theorem Stamped.observe
    {cycle later : Nat}
    {held : Option WarpState}
    {before after : Warp}
    {age : Age}
    (stamped : Stamped cycle before age)
    (bound : cycle ≤ later)
    (restamps : Restamps later held before after) :
    Stamped later after (age.observe later held (some after.state)) := by
  unfold Age.observe
  split
  · rename_i becomes
    exact
      ⟨(stamped.admitted.trans stamped.past).trans bound, le_rfl,
        fun ready => (restamps.woken becomes.1 ready).le⟩
  · rename_i stays
    refine ⟨stamped.admitted, stamped.past.trans bound, fun ready => ?_⟩
    have wasReady : held = some .ready := by
      by_contra notReady
      exact stays ⟨notReady, congrArg some ready⟩
    rcases restamps.kept wasReady ready with ⟨readyBefore, same⟩
    rw [same]
    exact stamped.stamp readyBefore

/-- The ages of a whole warp vector are observed position by position. -/
theorem stamped_observe
    {cycle later : Nat}
    {before after : List Warp}
    {ages : List Age}
    {held : Nat → Option WarpState}
    (stamped : List.Forall₂ (Stamped cycle) before ages)
    (bound : cycle ≤ later)
    (length : after.length = before.length)
    (restamps :
      ∀ (position : Nat) (warp changed : Warp),
        before[position]? = some warp →
        after[position]? = some changed →
        Restamps later (held position) warp changed) :
    List.Forall₂ (Stamped later) after
      (ages.mapIdx fun position =>
        Age.observe later (held position) (stateAt after position)) := by
  refine
    Pointwise.of_positions
      (by rw [List.length_mapIdx, length, stamped.length_eq]) ?_
  intro position changed observed isChanged isObserved
  rw [List.getElem?_mapIdx, Option.map_eq_some_iff] at isObserved
  rcases isObserved with ⟨age, isAge, rfl⟩
  rcases Pointwise.origin stamped isAge with ⟨warp, isWarp, related⟩
  have isState : stateAt after position = some changed.state := by
    rw [stateAt, isChanged]
    rfl
  rw [isState]
  exact
    related.observe bound (restamps position warp changed isWarp isChanged)

/--
What an observation says of a ready warp: it has just become ready and carries
the new stamp, or its stamp and its age are those it had.
-/
theorem Restamps.cases
    {later : Nat}
    {held : Option WarpState}
    {before after : Warp}
    (restamps : Restamps later held before after)
    (ready : after.state = .ready)
    (age : Age) :
    (after.readySinceCycle = later ∧
        (age.observe later held (some after.state)).since = later) ∨
      (before.state = .ready ∧
        after.readySinceCycle = before.readySinceCycle ∧
        (age.observe later held (some after.state)).since = age.since) := by
  unfold Age.observe
  by_cases wasReady : held = some .ready
  · rcases restamps.kept wasReady ready with ⟨readyBefore, same⟩
    rw [if_neg fun becomes => becomes.1 wasReady]
    exact .inr ⟨readyBefore, same, rfl⟩
  · rw [if_pos ⟨wasReady, congrArg some ready⟩]
    exact .inl ⟨restamps.woken wasReady ready, rfl⟩

/-- The step lemma: two warps stay in turn when some become ready. -/
theorem InTurn.observe
    {cycle later : Nat}
    {firstHeld secondHeld : Option WarpState}
    {first second firstAfter secondAfter : Warp}
    {firstAge secondAge : Age}
    (inTurn : InTurn (first, firstAge) (second, secondAge))
    (bound : cycle ≤ later)
    (firstStamped : Stamped cycle first firstAge)
    (secondStamped : Stamped cycle second secondAge)
    (firstRestamps : Restamps later firstHeld first firstAfter)
    (secondRestamps : Restamps later secondHeld second secondAfter)
    (firstId : firstAfter.warpId = first.warpId)
    (secondId : secondAfter.warpId = second.warpId) :
    InTurn
      (firstAfter,
        firstAge.observe later firstHeld (some firstAfter.state))
      (secondAfter,
        secondAge.observe later secondHeld (some secondAfter.state)) := by
  intro firstReady secondReady
  dsimp only at firstReady secondReady ⊢
  have firstPast := firstStamped.past.trans bound
  have secondPast := secondStamped.past.trans bound
  rw [olderThan_iff, olderThan_eq_false_iff]
  rcases firstRestamps.cases firstReady firstAge with
    ⟨firstStamp, firstSince⟩ | ⟨firstWas, firstStamp, firstSince⟩ <;>
  rcases secondRestamps.cases secondReady secondAge with
    ⟨secondStamp, secondSince⟩ | ⟨secondWas, secondStamp, secondSince⟩
  · -- both have just become ready
    omega
  · -- the second one has been ready before
    have stamp := secondStamped.stamp secondWas
    omega
  · -- the first one has been ready before
    have stamp := firstStamped.stamp firstWas
    omega
  · have before := inTurn firstWas secondWas
    rw [olderThan_iff, olderThan_eq_false_iff] at before
    dsimp only at before
    omega

/-- Whole vectors of warps stay in turn. -/
theorem ordered_observe
    {cycle later : Nat}
    {before after : List Warp}
    {ages : List Age}
    {held : Nat → Option WarpState}
    (ordered : Ordered before ages)
    (stamped : List.Forall₂ (Stamped cycle) before ages)
    (bound : cycle ≤ later)
    (ids : after.map Warp.warpId = before.map Warp.warpId)
    (restamps :
      ∀ (position : Nat) (warp changed : Warp),
        before[position]? = some warp →
        after[position]? = some changed →
        Restamps later (held position) warp changed) :
    Ordered after
      (ages.mapIdx fun position =>
        Age.observe later (held position) (stateAt after position)) := by
  have length := congrArg List.length ids
  rw [List.length_map, List.length_map] at length
  have sameLength := stamped.length_eq
  unfold Ordered at ordered ⊢
  rw [List.pairwise_iff_getElem] at ordered ⊢
  intro i j inside insideToo less
  rw [List.length_zip, List.length_mapIdx] at inside insideToo
  have firstBefore : i < before.length := by omega
  have secondBefore : j < before.length := by omega
  have firstAfter : i < after.length := by omega
  have secondAfter : j < after.length := by omega
  have firstAge : i < ages.length := by omega
  have secondAge : j < ages.length := by omega
  have sameId (position : Nat)
      (isBefore : position < before.length)
      (isAfter : position < after.length) :
      after[position].warpId = before[position].warpId := by
    have found := congrArg (·[position]?) ids
    simpa [isBefore, isAfter] using found
  have inTurn :=
    ordered i j (by rw [List.length_zip]; omega)
      (by rw [List.length_zip]; omega) less
  rw [List.getElem_zip, List.getElem_zip] at inTurn ⊢
  rw [List.getElem_mapIdx, List.getElem_mapIdx, stateAt, stateAt,
    List.getElem?_eq_getElem firstAfter,
    List.getElem?_eq_getElem secondAfter]
  exact
    inTurn.observe bound
      (Pointwise.related_at stamped (List.getElem?_eq_getElem firstBefore)
        (List.getElem?_eq_getElem firstAge))
      (Pointwise.related_at stamped (List.getElem?_eq_getElem secondBefore)
        (List.getElem?_eq_getElem secondAge))
      (restamps i _ _ (List.getElem?_eq_getElem firstBefore)
        (List.getElem?_eq_getElem firstAfter))
      (restamps j _ _ (List.getElem?_eq_getElem secondBefore)
        (List.getElem?_eq_getElem secondAfter))
      (sameId i firstBefore firstAfter) (sameId j secondBefore secondAfter)

/-- Counting a stall down stamps a warp that it wakes. -/
theorem tickStall_restamps
    (cycle : Nat)
    (warp : Warp) :
    Restamps cycle (some warp.state) warp (warp.tickStall cycle) := by
  unfold Warp.tickStall
  split
  · rename_i stalled
    split
    · refine ⟨fun ready => ?_, fun _ _ => rfl⟩
      rw [stalled.1] at ready
      cases ready
    · refine ⟨fun _ ready => ⟨ready, rfl⟩, fun notReady ready => ?_⟩
      exact (notReady (congrArg some ready)).elim
  · refine ⟨fun _ ready => ⟨ready, rfl⟩, fun notReady ready => ?_⟩
    exact (notReady (congrArg some ready)).elim

/-- A release from a barrier stamps a warp that waits there. -/
theorem releaseFrom_restamps
    (blockId cycle : Nat)
    (warp : Warp) :
    Restamps cycle (some warp.state) warp
      (warp.releaseFrom blockId cycle) := by
  unfold Warp.releaseFrom Warp.setReady
  split
  · split
    · rename_i notReady
      refine ⟨fun ready => ?_, fun _ _ => rfl⟩
      exact (notReady (Option.some.inj ready)).elim
    · refine ⟨fun _ ready => ⟨ready, rfl⟩, fun notReady ready => ?_⟩
      exact (notReady (congrArg some ready)).elim
  · refine ⟨fun _ ready => ⟨ready, rfl⟩, fun notReady ready => ?_⟩
    exact (notReady (congrArg some ready)).elim

/-- Settling readies no warp and keeps the stamp of a ready one. -/
theorem settle_stamp
    {kernel : Kernel}
    {result : ExecutionResult}
    {warp : Warp}
    (ready : (SM.settle kernel result warp).state = .ready) :
    warp.state = .ready ∧
      (SM.settle kernel result warp).readySinceCycle =
        warp.readySinceCycle := by
  unfold SM.settle at ready ⊢
  split at ready
  · rename_i outside
    rw [if_pos outside]
    cases stack : warp.simtStack with
    | nil =>
        rw [Warp.popSimtStack, stack] at ready ⊢
        dsimp only at ready ⊢
        split at ready
        · cases ready
        · rename_i waiting
          rw [if_neg waiting]
          exact ⟨ready, rfl⟩
    | cons entry rest =>
        rw [Warp.popSimtStack, stack] at ready ⊢
        exact ⟨ready, rfl⟩
  · rename_i inside
    rw [if_neg inside]
    split at ready
    · rename_i slow
      rw [if_pos slow]
      unfold Warp.stall at ready ⊢
      split at ready
      · cases ready
      · rename_i noCycles
        rw [if_neg noCycles]
        exact ⟨ready, rfl⟩
    · rename_i prompt
      rw [if_neg prompt]
      exact ⟨ready, rfl⟩

/-- Wait accounting changes neither states nor stamps. -/
theorem accountWarp_stamp
    (selectedId : Option Nat)
    (counters : PerformanceCounter)
    (warp : Warp) :
    (SM.accountWarp selectedId counters warp).2.readySinceCycle =
      warp.readySinceCycle := by
  unfold SM.accountWarp
  split
  · split
    · rfl
    · unfold Warp.checkAndSetStarvation
      dsimp only
      split <;> rfl
  · rfl

/-- Whether a warp is about to execute a barrier. -/
def fetchesBarrier (kernel : Kernel) (warp : Warp) : Bool :=
  (kernel.fetch? warp.warpPc).any fun inst => inst.opcode == .barrier

/-- The state in which an issue finds the warp at a position. -/
def heldAt
    (kernel : Kernel)
    (index : Nat)
    (issued : Warp)
    (position : Nat)
    (warp : Warp) : Option WarpState :=
  if index == position && fetchesBarrier kernel issued then
    some .stalledAtBarrier
  else
    some warp.state

section Issue

variable {kernel : Kernel}
variable {warps : List Warp}
variable {index position cycle : Nat}
variable {issued warp changed : Warp}

/-- A warp that an issue does not touch keeps its stamp. -/
theorem restamps_elsewhere
    (elsewhere : position ≠ index)
    (same : Restamps cycle (some warp.state) warp changed) :
    Restamps cycle (heldAt kernel index issued position warp) warp
      changed := by
  have other : (index == position) = false :=
    beq_eq_false_iff_ne.mpr elsewhere.symm
  rw [heldAt, other, Bool.false_and, if_neg Bool.false_ne_true]
  exact same

/-- A completed warp has no stamp to keep. -/
theorem restamps_completed
    {held : Option WarpState} :
    Restamps cycle held warp warp.setCompleted where
  kept := fun _ ready => nomatch ready
  woken := fun _ ready => nomatch ready

/-- A warp that waits at a barrier has no stamp to keep. -/
theorem restamps_waiting
    (woken : changed.state = .ready → changed.readySinceCycle = cycle) :
    Restamps cycle (some .stalledAtBarrier) warp changed where
  kept := by
    rintro ⟨⟩
  woken := fun _ => woken

/-- Nothing has happened to a warp. -/
theorem restamps_self :
    Restamps cycle (some warp.state) warp warp :=
  ⟨fun _ ready => ⟨ready, rfl⟩,
    fun notReady ready => (notReady (congrArg some ready)).elim⟩

/-- An issue that replaces its warp stamps the others as they were. -/
theorem set_restamps
    {settled : Warp}
    (isIssued : warps[index]? = some issued)
    (atIndex :
      Restamps cycle (heldAt kernel index issued index issued) issued
        settled)
    (isWarp : warps[position]? = some warp)
    (isChanged : (warps.set index settled)[position]? = some changed) :
    Restamps cycle (heldAt kernel index issued position warp) warp
      changed := by
  by_cases same : position = index
  · subst same
    have inside := (List.getElem?_eq_some_iff.mp isIssued).1
    rw [List.getElem?_set_self inside, Option.some.injEq] at isChanged
    rw [isIssued, Option.some.injEq] at isWarp
    subst isChanged isWarp
    exact atIndex
  · rw [List.getElem?_set_ne (Ne.symm same), isWarp,
      Option.some.injEq] at isChanged
    subst isChanged
    exact restamps_elsewhere same restamps_self

/-- A release stamps the warps that waited, the issued one among them. -/
theorem released_restamps
    {executed : Warp}
    {result : ExecutionResult}
    {blockId : Nat}
    (barrier : fetchesBarrier kernel issued = true)
    (isIssued : warps[index]? = some issued)
    (isWarp : warps[position]? = some warp)
    (isChanged :
      ((warps.map (Warp.releaseFrom blockId cycle)).set index
          (SM.settle kernel result
            (executed.setStalledAtBarrier.releaseFrom blockId cycle)))[
        position]? = some changed) :
    Restamps cycle (heldAt kernel index issued position warp) warp
      changed := by
  by_cases same : position = index
  · subst same
    have inside := (List.getElem?_eq_some_iff.mp isIssued).1
    rw [List.getElem?_set_self (by rwa [List.length_map]),
      Option.some.injEq] at isChanged
    subst isChanged
    rw [heldAt, beq_self_eq_true, barrier, Bool.true_and, if_pos rfl]
    apply restamps_waiting
    intro ready
    rcases settle_stamp ready with ⟨isReady, stamp⟩
    rw [stamp]
    refine (releaseFrom_restamps blockId cycle _).woken ?_ isReady
    rintro ⟨⟩
  · rw [List.getElem?_set_ne (Ne.symm same), List.getElem?_map, isWarp,
      Option.map_some, Option.some.injEq] at isChanged
    subst isChanged
    exact restamps_elsewhere same (releaseFrom_restamps blockId cycle warp)

/-- An issue stamps every warp as it should. -/
theorem issue_restamps
    {sm after : SM Scheduler}
    {memory memory' : MemorySystem}
    (isIssued : sm.warps[index]? = some issued)
    (ran : sm.issue index issued kernel memory = .ok (after, memory'))
    (isWarp : sm.warps[position]? = some warp)
    (isChanged : after.warps[position]? = some changed) :
    Restamps sm.counters.cycles
      (heldAt kernel index issued position warp) warp changed := by
  unfold SM.issue at ran
  cases fetched : kernel.fetch? issued.warpPc with
  | none =>
      simp only [fetched, Except.ok.injEq, Prod.mk.injEq] at ran
      rcases ran with ⟨rfl, rfl⟩
      exact set_restamps isIssued restamps_completed isWarp isChanged
  | some inst =>
      simp only [fetched] at ran
      cases executes :
          InstructionExecutor.execute inst (issued, memory) with
      | error error _ =>
          simp [executes] at ran
      | ok result final =>
          rcases final with ⟨executed, memory''⟩
          simp only [executes] at ran
          have facts := InstructionExecutor.execute_ok executes
          have inside := (List.getElem?_eq_some_iff.mp isIssued).1
          by_cases barrier : inst.opcode = .barrier
          · have isBarrier : fetchesBarrier kernel issued = true := by
              simp [fetchesBarrier, fetched, barrier]
            rw [if_pos (facts.barrier.mpr barrier)] at ran
            rcases Outcome.except_bind_ok.mp ran with
              ⟨arrived, arrives, returned⟩
            cases returned
            rcases SM.handleBarrierArrival_ok
                (List.getElem?_set_self inside) arrives with
              ⟨_, _, _, _, rfl⟩ | ⟨_, rfl⟩
            · simp only [SM.setWarp, List.set_set] at isChanged
              rw [SM.modify_set] at isChanged
              refine set_restamps isIssued ?_ isWarp isChanged
              rw [heldAt, beq_self_eq_true, isBarrier, Bool.true_and,
                if_pos rfl]
              apply restamps_waiting
              intro ready
              cases (settle_stamp ready).1
            · have clock :=
                (Accounting.recordResult_sameTimes inst result
                  sm.counters).cycles
              simp only [SM.setWarp, List.set_set, List.map_set] at isChanged
              rw [SM.modify_set, clock] at isChanged
              exact released_restamps isBarrier isIssued isWarp isChanged
          · have held :
                heldAt kernel index issued index issued =
                  some issued.state := by
              simp [heldAt, fetchesBarrier, fetched, barrier]
            rw [if_neg (fun reached =>
              barrier (facts.barrier.mp reached))] at ran
            rcases Outcome.except_bind_ok.mp ran with
              ⟨arrived, arrives, returned⟩
            cases arrives
            cases returned
            simp only [SM.setWarp] at isChanged
            rw [SM.modify_set] at isChanged
            refine set_restamps isIssued ?_ isWarp isChanged
            rw [held]
            have shell := facts.shell
            refine ⟨fun _ ready => ?_, fun notReady ready => ?_⟩
            · rcases settle_stamp ready with ⟨isReady, same⟩
              exact
                ⟨shell.state.symm.trans isReady,
                  same.trans shell.readySinceCycle⟩
            · rcases settle_stamp ready with ⟨isReady, _⟩
              exact
                (notReady
                  (congrArg some (shell.state.symm.trans isReady))).elim

end Issue

/-! ## One tick -/

section Tick

variable {kernel : Kernel}
variable {sm after : SM Scheduler}
variable {memory memory' : MemorySystem}
variable {ages : List Age}

/-- The stalls that end stamp every warp as they should. -/
theorem tickStalls_restamps
    {position : Nat}
    {warp changed : Warp}
    (isWarp : sm.warps[position]? = some warp)
    (isChanged : sm.tickStalls.warps[position]? = some changed) :
    Restamps sm.counters.cycles (stateAt sm.warps position) warp
      changed := by
  change (sm.warps.map _)[position]? = some changed at isChanged
  rw [List.getElem?_map, isWarp, Option.map_some,
    Option.some.injEq] at isChanged
  subst isChanged
  rw [stateAt, isWarp]
  exact tickStall_restamps sm.counters.cycles warp

/-- The ages at a selection go with the stamps that it compares. -/
theorem stamped_tickStalls
    (stamped : List.Forall₂ (Stamped sm.counters.cycles) sm.warps ages) :
    List.Forall₂ (Stamped sm.counters.cycles) sm.tickStalls.warps
      (stalledAges sm ages) :=
  stamped_observe stamped le_rfl (List.length_map _)
    fun _ _ _ isWarp isChanged => tickStalls_restamps isWarp isChanged

/-- Stalls that end leave the warps in turn. -/
theorem ordered_tickStalls
    (ordered : Ordered sm.warps ages)
    (stamped : List.Forall₂ (Stamped sm.counters.cycles) sm.warps ages) :
    Ordered sm.tickStalls.warps (stalledAges sm ages) :=
  ordered_observe ordered stamped le_rfl (Accounting.tickStalls_ids sm)
    fun _ _ _ isWarp isChanged => tickStalls_restamps isWarp isChanged

/-- Wait accounting of a tick keeps states and stamps. -/
theorem timed_at
    {position : Nat}
    {warp timed : Warp}
    (isWarp : sm.tickStalls.warps[position]? = some warp)
    (isTimed : sm.timed[position]? = some timed) :
    timed.state = warp.state ∧
      timed.readySinceCycle = warp.readySinceCycle := by
  have shape :
      sm.timed =
        sm.tickStalls.warps.map fun warp =>
          (SM.accountWarp
            ((sm.selected?.bind (sm.tickStalls.warps[·]?)).map
              Warp.warpId) {} warp).2 :=
    SM.accountWarps_warps _ _ _
  rw [shape, List.getElem?_map, isWarp, Option.map_some,
    Option.some.injEq] at isTimed
  subst isTimed
  exact
    ⟨(SM.accountWarp_accounted _ _ warp).state, accountWarp_stamp _ _ warp⟩

/-- Without an issue no warp arrives at a barrier. -/
theorem arrivedAt_of_none
    (nothing : sm.issued? = none)
    (position : Nat) :
    arrivedAt kernel sm position =
      stateAt sm.tickStalls.warps position := by
  rw [arrivedAt, arrives, nothing]
  rfl

/-- A tick stamps every warp as it should. -/
theorem tick_restamps
    {position : Nat}
    {warp changed : Warp}
    (uncompleted : sm.isCompleted = false)
    (ran : sm.tick kernel memory = .ok (after, memory'))
    (isWarp : sm.tickStalls.warps[position]? = some warp)
    (isChanged : after.warps[position]? = some changed) :
    Restamps (sm.counters.cycles + 1) (arrivedAt kernel sm position) warp
      changed := by
  have isState : stateAt sm.tickStalls.warps position = some warp.state := by
    rw [stateAt, isWarp]
    rfl
  cases SM.ticking ran with
  | completed done =>
      rw [uncompleted] at done
      cases done
  | unscheduled _ none =>
      rw [arrivedAt_of_none (by simp [SM.issued?, SM.selected?, none]),
        isState]
      change sm.tickStalls.warps[position]? = some changed at isChanged
      rw [isWarp, Option.some.injEq] at isChanged
      subst isChanged
      exact restamps_self
  | idle _ _ nothing =>
      rw [arrivedAt_of_none nothing, isState]
      rw [(SM.idle_ledger sm.accounted).2.1] at isChanged
      rcases timed_at isWarp isChanged with ⟨state, stamp⟩
      refine ⟨fun _ ready => ⟨?_, stamp⟩, fun notReady ready => ?_⟩
      · rwa [← state]
      · rw [state] at ready
        exact (notReady (congrArg some ready)).elim
  | issued _ _ selected issues =>
      rename_i index issued _ _
      have accounted : List.Forall₂ Accounted sm.tickStalls.warps sm.timed :=
        SM.accountWarps_accounted _ _ _
      rcases Pointwise.partner accounted isWarp with ⟨timed, isTimed, _⟩
      rcases timed_at isWarp isTimed with ⟨state, stamp⟩
      have restamps :=
        issue_restamps (by exact SM.issued?_timed selected) issues isTimed
          isChanged
      rw [(Accounting.accounted_counters uncompleted).1] at restamps
      have held :
          heldAt kernel index issued position timed =
            arrivedAt kernel sm position := by
        rw [heldAt, arrivedAt, arrives, selected, Option.any_some, isState,
          state]
        rfl
      rw [held] at restamps
      refine ⟨fun wasReady ready => ?_, restamps.woken⟩
      rw [← state, ← stamp]
      exact restamps.kept wasReady ready

/-- A tick keeps the stamps in step with the ages. -/
theorem stamped_tick
    (scheduled : sm.scheduler.isSome = true)
    (stamped : List.Forall₂ (Stamped sm.counters.cycles) sm.warps ages)
    (ran : sm.tick kernel memory = .ok (after, memory')) :
    List.Forall₂ (Stamped after.counters.cycles) after.warps
      (tickedAges kernel sm after ages) := by
  unfold tickedAges
  cases done : sm.isCompleted with
  | true =>
      rw [SM.tick_completed done ran, if_pos rfl]
      exact stamped
  | false =>
      rw [if_neg Bool.false_ne_true,
        Accounting.tick_cycles scheduled done ran]
      refine
        stamped_observe (stamped_tickStalls stamped) (Nat.le_succ _) ?_
          fun position warp changed isWarp isChanged =>
            tick_restamps done ran isWarp isChanged
      have sameLength := congrArg List.length (Accounting.tick_ids ran)
      rw [List.length_map, List.length_map] at sameLength
      rw [sameLength]
      exact (List.length_map _).symm

/-- A tick leaves the warps in turn. -/
theorem ordered_tick
    (ordered : Ordered sm.warps ages)
    (stamped : List.Forall₂ (Stamped sm.counters.cycles) sm.warps ages)
    (ran : sm.tick kernel memory = .ok (after, memory')) :
    Ordered after.warps (tickedAges kernel sm after ages) := by
  unfold tickedAges
  cases done : sm.isCompleted with
  | true =>
      rw [SM.tick_completed done ran, if_pos rfl]
      exact ordered
  | false =>
      rw [if_neg Bool.false_ne_true]
      exact
        ordered_observe (ordered_tickStalls ordered stamped)
          (stamped_tickStalls stamped) (Nat.le_succ _)
          ((Accounting.tick_ids ran).trans
            (Accounting.tickStalls_ids sm).symm)
          fun _ _ _ isWarp isChanged =>
            tick_restamps done ran isWarp isChanged

end Tick

/-! ## One selection -/

section Selection

variable {sm : SM Scheduler}
variable {ages : List Age}
variable {warps : List Warp}
variable {position : Nat}
variable {warp : Warp}

/-- What a tick selects is the oldest warp by its stamp. -/
theorem selected?_oldest
    (scheduled : sm.scheduler = some .oldestFirst) :
    sm.selected? = oldestReady sm.tickStalls.warps := by
  rw [SM.selected?, scheduled]
  rfl

/-- While the warps are in turn, the next selection respects age. -/
theorem respectsAge_of_ordered
    (scheduled : sm.scheduler = some .oldestFirst)
    (stamped : List.Forall₂ (Stamped sm.counters.cycles) sm.warps ages)
    (ordered : Ordered sm.warps ages) :
    RespectsAge sm ages := by
  have stamps := stamped_tickStalls stamped
  have turns := ordered_tickStalls ordered stamped
  unfold Ordered at turns
  rw [List.pairwise_iff_getElem] at turns
  have oldest :
      ∀ (selected other : Nat) (age otherAge : Age),
        sm.selected? = some selected →
        ReadyAged sm ages selected age →
        ReadyAged sm ages other otherAge →
        age.since ≤ otherAge.since := by
    rintro selected other age otherAge isSelected ⟨_, isAge⟩
      ⟨⟨waiting, isWaiting, ready⟩, isOtherAge⟩
    rw [selected?_oldest scheduled] at isSelected
    rcases oldestReady_oldestAt isSelected with ⟨warp, isOldest⟩
    have both :
        (sm.tickStalls.warps.zip (stalledAges sm ages))[selected]? =
          some (warp, age) :=
      List.getElem?_zip_eq_some.mpr ⟨isOldest.found, isAge⟩
    have others :
        (sm.tickStalls.warps.zip (stalledAges sm ages))[other]? =
          some (waiting, otherAge) :=
      List.getElem?_zip_eq_some.mpr ⟨isWaiting, isOtherAge⟩
    rcases List.getElem?_eq_some_iff.mp both with ⟨inside, pair⟩
    rcases List.getElem?_eq_some_iff.mp others with ⟨otherInside, otherPair⟩
    refine Nat.not_lt.mp fun earlier => ?_
    rcases Nat.lt_trichotomy other selected with before | rfl | behind
    · have inTurn := turns other selected otherInside inside before
      rw [otherPair, pair] at inTurn
      have notOlder := (inTurn ready isOldest.ready).1 earlier
      rw [isOldest.before other waiting before isWaiting ready] at notOlder
      cases notOlder
    · rw [isAge, Option.some.injEq] at isOtherAge
      subst isOtherAge
      exact Nat.lt_irrefl _ earlier
    · have inTurn := turns selected other inside otherInside behind
      rw [otherPair, pair] at inTurn
      have older := (inTurn isOldest.ready ready).2 earlier
      rw [isOldest.after other waiting behind isWaiting ready] at older
      cases older
  refine ⟨oldest, fun selected other age otherAge isSelected aged others => ?_⟩
  have inOrder := oldest selected other age otherAge isSelected aged others
  rcases Pointwise.origin stamps aged.2 with ⟨_, _, stamp⟩
  exact Nat.not_lt.mpr (stamp.admitted.trans inOrder)

end Selection

/-! ## Whole runs -/

/-- What a run keeps of one multiprocessor. -/
structure Kept (sm : SM Scheduler) (ages : List Age) : Prop where
  scheduled : sm.scheduler = some .oldestFirst
  stamped : List.Forall₂ (Stamped sm.counters.cycles) sm.warps ages
  ordered : Ordered sm.warps ages

section Runs

variable {kernel : Kernel}
variable {grid : Grid}
variable {config : SystemConfig}
variable {req : KernelResourceRequirements}
variable {smId : Nat}
variable {sm : SM Scheduler}
variable {ages : List Age}

/-- A launch forgets the warps. -/
theorem Kept.clear
    (scheduled : sm.scheduler = some .oldestFirst) :
    Kept sm.clearWarps [] :=
  ⟨scheduled, .nil, .nil⟩

/-- A release keeps the ages of the remaining warps. -/
theorem Kept.release
    (kept : Kept sm ages) :
    Kept sm.releaseCompletedBlocks (sm.retain ages) where
  scheduled := by
    rw [SM.releaseCompletedBlocks_eq]
    exact kept.scheduled
  stamped := by
    have clock :
        sm.releaseCompletedBlocks.counters.cycles = sm.counters.cycles := by
      rw [SM.releaseCompletedBlocks_eq]
    rw [clock]
    exact SM.retain_related kept.stamped
  ordered := by
    unfold Ordered
    rw [SM.retain_zip kept.stamped.length_eq.symm]
    exact kept.ordered.filter _

/-- Admissions append warps and neither reschedule nor count a cycle. -/
theorem admitAll_fields
    (blocks : List ThreadBlock) :
    (GPU.admitAll req sm blocks).warps =
        sm.warps ++ blocks.flatMap ThreadBlock.warps ∧
      (GPU.admitAll req sm blocks).scheduler = sm.scheduler ∧
      (GPU.admitAll req sm blocks).counters.cycles =
        sm.counters.cycles := by
  induction blocks generalizing sm with
  | nil => exact ⟨(List.append_nil _).symm, rfl, rfl⟩
  | cons block rest inductionHypothesis =>
      have admits := sm.allocateBlock_admits block req
      have counters := Accounting.allocateBlock_counters sm block req
      rcases @inductionHypothesis (sm.allocateBlock block req) with
        ⟨warps, scheduler, cycles⟩
      refine ⟨?_, scheduler.trans admits.scheduler, cycles.trans ?_⟩
      · rw [List.flatMap_cons, ← List.append_assoc, ← admits.warps]
        exact warps
      · rw [counters]

/-- Admissions in order leave the warps in turn. -/
theorem Kept.admitted
    {blocks : List ThreadBlock}
    (inOrder :
      (Admission.between sm (GPU.admitAll req sm blocks) ages).InOrder)
    (kept : Kept sm ages) :
    Kept (GPU.admitAll req sm blocks)
      (admittedAges (GPU.admitAll req sm blocks) ages) := by
  rcases @admitAll_fields req sm blocks with ⟨warps, scheduler, cycles⟩
  have sameLength := kept.stamped.length_eq
  unfold Admission.between Admission.InOrder at inOrder
  dsimp only at inOrder
  rw [warps, cycles, List.drop_left] at inOrder
  have isCopied
      {age : Age}
      (member :
        age ∈
          List.replicate (blocks.flatMap ThreadBlock.warps).length
            (Age.copied sm.counters.cycles)) :
      age = .copied sm.counters.cycles :=
    List.eq_of_mem_replicate member
  refine ⟨scheduler.trans kept.scheduled, ?_, ?_⟩
  · unfold admittedAges
    rw [warps, cycles, List.length_append, sameLength,
      Nat.add_sub_cancel_left]
    refine List.rel_append kept.stamped ?_
    refine Pointwise.of_positions (List.length_replicate ..).symm ?_
    intro position warp age isWarp isAge
    rw [isCopied (List.mem_of_getElem? isAge)]
    exact
      ⟨le_rfl, le_rfl, fun ready =>
        (inOrder warp (List.mem_of_getElem? isWarp) ready).1⟩
  · unfold admittedAges Ordered
    rw [warps, cycles, List.length_append, sameLength,
      Nat.add_sub_cancel_left, List.zip_append sameLength,
      List.pairwise_append]
    refine ⟨kept.ordered, ?_, ?_⟩
    · -- warps that are copied in together are of one age
      rw [List.pairwise_iff_forall_sublist]
      rintro ⟨first, firstAge⟩ ⟨second, secondAge⟩ both _ _
      have members := both.subset
      have isFirst := (List.of_mem_zip (members (.head _))).2
      have isSecond := (List.of_mem_zip (members (.tail _ (.head _)))).2
      rw [isCopied isFirst, isCopied isSecond]
      exact
        ⟨fun less => (Nat.lt_irrefl _ less).elim,
          fun less => (Nat.lt_irrefl _ less).elim⟩
    · rintro ⟨waiting, age⟩ isWaiting ⟨warp, copied⟩ isNew waits ready
      have isNewAge := isCopied (List.of_mem_zip isNew).2
      subst isNewAge
      refine ⟨fun earlier => ?_, fun later => ?_⟩
      · exact
          (inOrder warp (List.of_mem_zip isNew).1 ready).2 (waiting, age)
            isWaiting waits earlier
      · rcases List.mem_iff_getElem?.mp isWaiting with ⟨position, found⟩
        rw [List.getElem?_zip_eq_some] at found
        have past :=
          (Pointwise.related_at kept.stamped found.1 found.2).past
        exact (Nat.not_lt.mpr past later).elim

/-- A tick of a run keeps the stamps in step with the ages. -/
theorem Kept.tick
    {before after : SM Scheduler}
    (kept : Kept before ages)
    (ticks : GPU.Ticks kernel before after) :
    Kept after (tickedAges kernel before after ages) := by
  rcases ticks with ⟨rfl, done⟩ | ⟨uncompleted, _, _, ticked, ran, rfl⟩
  · rw [tickedAges, if_pos done]
    exact kept
  · have scheduled : before.scheduler.isSome = true := by
      rw [kept.scheduled]
      rfl
    rcases SM.tick_ok ran with ⟨_, scheduler, _⟩
    have stamped := stamped_tick scheduled kept.stamped ran
    have ordered := ordered_tick kept.ordered kept.stamped ran
    refine ⟨?_, stamped, ordered⟩
    change ticked.scheduler = some .oldestFirst
    rw [scheduler, SM.rescheduled, uncompleted, if_neg Bool.false_ne_true,
      kept.scheduled]
    rfl

/-- A refill with admissions in order leaves the warps in turn. -/
theorem Kept.refill
    {gpu refilled : GPU Scheduler}
    {before : SM Scheduler}
    (refills : gpu.refill = .ok refilled)
    (isBefore : gpu.sms[smId]? = some before)
    (isSm : refilled.sms[smId]? = some sm)
    (inOrder :
      (Admission.between before.releaseCompletedBlocks sm
        (before.retain ages)).InOrder)
    (kept : Kept before ages) :
    Kept sm (admittedAges sm (before.retain ages)) := by
  rcases GPU.loadBlocks_loads refills with ⟨_, _, loads⟩
  rcases Pointwise.related_at loads isBefore isSm with ⟨blocks, _, rfl⟩
  exact kept.release.admitted inOrder

/-- The run lemma: while admissions are in order, so are the warps. -/
theorem Run.kept
    {gpu : GPU Scheduler}
    (run : Run Admission.InOrder kernel grid config req smId gpu sm ages) :
    gpu.sms[smId]? = some sm ∧ Kept sm ages := by
  induction run with
  | launched scheduled launches refills isFirst isSm admitsFirst admits =>
      rcases GPU.loadBlocks_loads launches with ⟨_, _, loads⟩
      rcases Pointwise.origin loads isFirst with
        ⟨idle, isIdle, blocks, _, rfl⟩
      have cleared : Kept idle.clearWarps [] :=
        .clear (scheduled idle (List.mem_of_getElem? isIdle))
      exact
        ⟨isSm,
          (cleared.admitted admitsFirst).refill refills isFirst isSm admits⟩
  | iterated _ ticks isTicked refills isSm admits inductionHypothesis =>
      rcases inductionHypothesis with ⟨isBefore, kept⟩
      have ticked :=
        Pointwise.related_at (GPU.tickSms_ok ticks).1 isBefore isTicked
      exact ⟨isSm, (kept.tick ticked).refill refills isTicked isSm admits⟩

end Runs

/--
In every run in which all admissions are in order, every selection respects
age, whatever the kernel and the grid.
-/
theorem respectsAge_of_inOrder
    {kernel : Kernel}
    {grid : Grid}
    {config : SystemConfig}
    {req : KernelResourceRequirements}
    {smId : Nat}
    {gpu : GPU Scheduler}
    {sm : SM Scheduler}
    {ages : List Age}
    (run : Run Admission.InOrder kernel grid config req smId gpu sm ages) :
    RespectsAge sm ages := by
  rcases run.kept with ⟨_, kept⟩
  exact respectsAge_of_ordered kept.scheduled kept.stamped kept.ordered

/-! ## Three blocks in two waves -/

/-- A state of a run from which a tick phase starts. -/
structure Watch where
  gpu : GPU Scheduler
  sm : SM Scheduler
  ages : List Age

/-- Two threads are resident together, and a load takes three cycles. -/
def waveConfig : SystemConfig where
  numSms := 1
  warpSize := 1
  blockSize := 1
  maxThreadsPerSm := 2
  maxBlocksPerSm := 2
  maxSharedMemoryPerSm := 0
  maxRegistersPerSm := 0
  sharedMemoryLatency := 3

/-- The GPU before its first launch: one multiprocessor. -/
def waveGpu : GPU Scheduler where
  sms := [SM.vacantWith .oldestFirst]
  l2Cache := (MemorySystem.minimal 1).l2Cache
  globalMemory := (MemorySystem.minimal 1).globalMemory
  config := waveConfig

/-- A load of shared memory and two moves. -/
def waveKernel : Kernel where
  instructions :=
    [⟨.load, 1, -1, -1, 0x10000000⟩, ⟨.mov, 2, -1, -1, 0⟩,
      ⟨.mov, 2, -1, -1, 0⟩]
  lengthFits := by decide

/-- A load of shared memory and one move. -/
def briefKernel : Kernel where
  instructions :=
    [⟨.load, 1, -1, -1, 0x10000000⟩, ⟨.mov, 2, -1, -1, 0⟩]
  lengthFits := by decide

/-- The benchmark grid of three one-thread blocks. -/
def waveGrid : Grid :=
  (Benchmarks.buildBenchmarkGrid 3 1 1 false).toOption.getD ⟨[]⟩

section Watches

variable (admissible : Admission → Prop)
variable [DecidablePred admissible]
variable (kernel : Kernel)

/-- The state of a run after an admission, if that is admissible. -/
def Watch.admit?
    (gpu refilled : GPU Scheduler)
    (agesOf : SM Scheduler → List Age) :
    Option Watch :=
  gpu.sms[0]?.bind fun ticked =>
    refilled.sms[0]?.bind fun sm =>
      if
        admissible
          (.between ticked.releaseCompletedBlocks sm
            (ticked.retain (agesOf ticked))) then
        some
          { gpu := refilled
            sm := sm
            ages := admittedAges sm (ticked.retain (agesOf ticked)) }
      else
        none

/-- The state from which the first tick phase starts. -/
def Watch.start? : Option Watch :=
  (waveGpu.launchKernel waveGrid waveConfig ⟨0, 0⟩).toOption.bind
    fun launched =>
      launched.refill.toOption.bind fun refilled =>
        launched.sms[0]?.bind fun first =>
          if admissible ⟨first.counters.cycles, [], first.warps⟩ then
            Watch.admit? admissible launched refilled
              fun first => admittedAges first []
          else
            none

/-- The GPU after the tick phase. -/
def Watch.ticked? (watch : Watch) : Option (GPU Scheduler) :=
  (GPU.tickSms kernel watch.gpu.config.memoryAccessConfig watch.gpu.sms
      watch.gpu.l2Cache watch.gpu.globalMemory).toOption.bind fun result =>
    if result.1 then
      none
    else
      some
        { watch.gpu with
          sms := result.2.1
          l2Cache := result.2.2.1
          globalMemory := result.2.2.2 }

/-- The state from which the next tick phase starts. -/
def Watch.next? (watch : Watch) : Option Watch :=
  (watch.ticked? kernel).bind fun gpu =>
    gpu.refill.toOption.bind fun refilled =>
      Watch.admit? admissible gpu refilled fun ticked =>
        tickedAges kernel watch.sm ticked watch.ages

/-- The state from which a tick phase starts, counted from the first one. -/
def Watch.after? : Nat → Option Watch
  | 0 => Watch.start? admissible
  | rounds + 1 =>
      (Watch.after? rounds).bind (Watch.next? admissible kernel)

/-- The state of a run. -/
def Watch.Reached (watch : Watch) : Prop :=
  Run admissible kernel waveGrid waveConfig ⟨0, 0⟩ 0 watch.gpu watch.sm
    watch.ages

end Watches

section Reached

variable {admissible : Admission → Prop}
variable [DecidablePred admissible]
variable {kernel : Kernel}

/-- What is known of a state after an admission. -/
theorem Watch.admit?_ok
    {gpu refilled : GPU Scheduler}
    {agesOf : SM Scheduler → List Age}
    {watch : Watch}
    (admits : Watch.admit? admissible gpu refilled agesOf = some watch) :
    ∃ ticked sm,
      gpu.sms[0]? = some ticked ∧ refilled.sms[0]? = some sm ∧
        admissible
          (.between ticked.releaseCompletedBlocks sm
            (ticked.retain (agesOf ticked))) ∧
        watch =
          { gpu := refilled
            sm := sm
            ages := admittedAges sm (ticked.retain (agesOf ticked)) } := by
  unfold Watch.admit? at admits
  rcases Option.bind_eq_some_iff.mp admits with ⟨ticked, isTicked, rest⟩
  rcases Option.bind_eq_some_iff.mp rest with ⟨sm, isSm, rest⟩
  split at rest
  · rename_i isAdmissible
    exact
      ⟨ticked, sm, isTicked, isSm, isAdmissible,
        (Option.some.inj rest).symm⟩
  · cases rest

/-- A launch starts a run. -/
theorem Watch.start?_reached
    {watch : Watch}
    (started : Watch.start? admissible = some watch) :
    watch.Reached admissible kernel := by
  unfold Watch.start? at started
  rcases Option.bind_eq_some_iff.mp started with ⟨launched, launches, rest⟩
  rcases Option.bind_eq_some_iff.mp rest with ⟨refilled, refills, rest⟩
  rcases Option.bind_eq_some_iff.mp rest with ⟨first, isFirst, rest⟩
  split at rest
  · rename_i admitsFirst
    rcases Watch.admit?_ok rest with ⟨same, sm, isSame, isSm, admits, rfl⟩
    rw [isFirst, Option.some.injEq] at isSame
    subst isSame
    refine
      .launched ?_ (Outcome.except_toOption_some.mp launches)
        (Outcome.except_toOption_some.mp refills) isFirst isSm admitsFirst
        admits
    intro sm member
    rw [List.mem_singleton.mp member]
    rfl
  · cases rest

/-- A tick phase and a refill continue it. -/
theorem Watch.next?_reached
    {watch after : Watch}
    (reached : watch.Reached admissible kernel)
    (next : watch.next? admissible kernel = some after) :
    after.Reached admissible kernel := by
  unfold Watch.next? at next
  rcases Option.bind_eq_some_iff.mp next with ⟨gpu, ticks, rest⟩
  rcases Option.bind_eq_some_iff.mp rest with ⟨refilled, refills, rest⟩
  rcases Watch.admit?_ok rest with ⟨ticked, sm, isTicked, isSm, admits, rfl⟩
  unfold Watch.ticked? at ticks
  rcases Option.bind_eq_some_iff.mp ticks with
    ⟨⟨allDone, sms, l2Cache, globalMemory⟩, ran, goesOn⟩
  cases allDone with
  | true => cases goesOn
  | false =>
      cases goesOn
      exact
        .iterated reached (Outcome.except_toOption_some.mp ran) isTicked
          (Outcome.except_toOption_some.mp refills) isSm admits

/-- Every state that is computed is the state of a run. -/
theorem Watch.after?_reached
    {rounds : Nat}
    {watch : Watch}
    (isWatch : Watch.after? admissible kernel rounds = some watch) :
    watch.Reached admissible kernel := by
  induction rounds generalizing watch with
  | zero => exact Watch.start?_reached isWatch
  | succ rounds inductionHypothesis =>
      rcases Option.bind_eq_some_iff.mp isWatch with ⟨before, isBefore, next⟩
      exact Watch.next?_reached (inductionHypothesis isBefore) next

end Reached

/-- What is seen of a run before a selection. -/
def Watch.seen (watch : Watch) :
    Option Nat × (Bool × Option Age) × (Bool × Option Age) :=
  (watch.sm.selected?,
    (readyAt watch.sm.tickStalls.warps 0,
      (stalledAges watch.sm watch.ages)[0]?),
    (readyAt watch.sm.tickStalls.warps 1,
      (stalledAges watch.sm watch.ages)[1]?))

/--
The third block is admitted in cycle three, while the second one still waits for
its load: every selection respects age.
-/
theorem respectsAge_of_inOrder_brief :
    (∀ rounds ≤ 5,
        ∃ watch,
          Watch.after? Admission.InOrder briefKernel rounds = some watch ∧
            RespectsAge watch.sm watch.ages) ∧
      (Watch.after? Admission.InOrder briefKernel 3).map Watch.seen =
        some (some 1, (true, some ⟨0, 3⟩), (true, some ⟨3, 3⟩)) := by
  refine ⟨fun rounds within => ?_, by decide +kernel⟩
  have isSome :
      ∀ rounds ≤ 5,
        (Watch.after? Admission.InOrder briefKernel rounds).isSome =
          true := by
    decide +kernel
  rcases Option.isSome_iff_exists.mp (isSome rounds within) with
    ⟨watch, isWatch⟩
  exact
    ⟨watch, isWatch, respectsAge_of_inOrder (Watch.after?_reached isWatch)⟩

/--
The second block has been ready since its load returned in cycle three; the
third one is admitted in cycle four, and preferred.
-/
theorem oldestFirst_prefers_new_block :
    ¬ ∀ (numThreads blockSize warpSize : Nat) (strided : Bool)
        (kernel : Kernel) (grid : Grid) (config : SystemConfig)
        (req : KernelResourceRequirements) (smId : Nat)
        (gpu : GPU Scheduler) (sm : SM Scheduler) (ages : List Age),
        1 ≤ blockSize →
        1 ≤ warpSize →
        warpSize ≤ 32 →
        Benchmarks.buildBenchmarkGrid numThreads blockSize warpSize strided =
          .ok grid →
        Run (fun _ => True) kernel grid config req smId gpu sm ages →
        RespectsAge sm ages := by
  intro always
  have built :
      Benchmarks.buildBenchmarkGrid 3 1 1 false = .ok waveGrid := by
    exact Outcome.except_ok_getD (by decide +kernel)
  have seen :
      (Watch.after? (fun _ => True) waveKernel 4).map Watch.seen =
        some (some 1, (true, some ⟨0, 3⟩), (true, some ⟨4, 4⟩)) := by
    decide +kernel
  rcases Option.map_eq_some_iff.mp seen with ⟨watch, isWatch, shape⟩
  simp only [Watch.seen, Prod.mk.injEq] at shape
  rcases shape with ⟨selected, ⟨ready, age⟩, newReady, newAge⟩
  have respects :=
    always 3 1 1 false _ _ _ _ _ _ _ _ le_rfl le_rfl (by decide) built
      (Watch.after?_reached isWatch)
  have inOrder :=
    respects.oldest 1 0 ⟨4, 4⟩ ⟨0, 3⟩ selected
      ⟨readyAt_iff.mp newReady, newAge⟩ ⟨readyAt_iff.mp ready, age⟩
  cases (Nat.not_le.mpr (Nat.lt_succ_self 3)) inOrder

end DispatchAge

end SimSm
