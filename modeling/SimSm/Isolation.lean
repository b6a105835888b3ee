import SimSm.Executor
import SimSm.Library.Outcome
import SimSm.Library.Coupling

namespace SimSm

/-!
# Inactive lanes neither act nor change

An instruction executed on two warps that agree on their control state and on
their active lanes ends alike on both, and leaves the lanes that were inactive
on entry as they were.
-/

open Coupling Outcome

namespace Isolation

/-- Two lists of threads agree on some lanes, from a first lane number on. -/
structure LanesAgree
    (on : Nat → Prop)
    (start : Nat)
    (left right : List Thread) : Prop where
  length : left.length = right.length
  lanes : ∀ i, on (start + i) → left[i]? = right[i]?

/-- The active lanes of a mask. -/
def Active (mask : ActiveMask) (lane : Nat) : Prop :=
  mask.getLsbD lane = true

/-- The other lanes. -/
def Idle (mask : ActiveMask) (lane : Nat) : Prop :=
  mask.getLsbD lane = false

namespace LanesAgree

variable {on : Nat → Prop}
variable {start : Nat}
variable {left right : List Thread}

theorem refl
    (on : Nat → Prop)
    (start : Nat)
    (threads : List Thread) :
    LanesAgree on start threads threads :=
  ⟨rfl, fun _ _ => rfl⟩

theorem trans
    {third : List Thread}
    (first : LanesAgree on start left right)
    (second : LanesAgree on start right third) :
    LanesAgree on start left third :=
  ⟨first.length.trans second.length,
    fun i isOn => (first.lanes i isOn).trans (second.lanes i isOn)⟩

/-- Lists agree when their heads and their tails do. -/
theorem cons_iff
    {first second : Thread} :
    LanesAgree on start (first :: left) (second :: right) ↔
      (on start → first = second) ∧
        LanesAgree on (start + 1) left right := by
  constructor
  · rintro ⟨length, lanes⟩
    refine ⟨fun isOn => Option.some.inj (lanes 0 isOn), ?_, fun i isOn => ?_⟩
    · exact Nat.succ.inj length
    · refine lanes (i + 1) ?_
      rwa [Nat.add_comm i 1, ← Nat.add_assoc]
  · rintro ⟨same, length, lanes⟩
    refine ⟨congrArg Nat.succ length, fun i isOn => ?_⟩
    cases i with
    | zero => exact congrArg some (same isOn)
    | succ i =>
        refine lanes i ?_
        rwa [Nat.add_assoc, Nat.add_comm 1 i]

/-- Setting one lane to one thread keeps lists in agreement. -/
theorem set
    (agree : LanesAgree on start left right)
    (i : Nat)
    (thread : Thread) :
    LanesAgree on start (left.set i thread) (right.set i thread) := by
  refine ⟨?_, fun other isOn => ?_⟩
  · rw [List.length_set, List.length_set, agree.length]
  · rw [List.getElem?_set, List.getElem?_set, agree.length,
      agree.lanes other isOn]

/-- Setting a lane outside changes none of the others. -/
theorem set_off
    {i : Nat}
    (off : ¬ on (start + i))
    (threads : List Thread)
    (thread : Thread) :
    LanesAgree on start threads (threads.set i thread) := by
  refine ⟨List.length_set.symm, fun other isOn => ?_⟩
  rw [List.getElem?_set_ne]
  rintro rfl
  exact off isOn

end LanesAgree

/-! ## The per-lane loops -/

open InstructionExecutor

section Loops

variable {mask : ActiveMask}
variable {start : Nat}
variable {left right : List Thread}

/-- A loop over the active lanes takes its course from these lanes alone. -/
theorem mapActive_agree
    (body : Thread → Except SimError Thread)
    (agree : LanesAgree (Active mask) start left right) :
    (mapActive mask body start left).2 =
        (mapActive mask body start right).2 ∧
      LanesAgree (Active mask) start (mapActive mask body start left).1
        (mapActive mask body start right).1 := by
  induction left generalizing start right with
  | nil =>
      obtain rfl := List.eq_nil_of_length_eq_zero agree.length.symm
      exact ⟨rfl, agree⟩
  | cons thread rest inductionHypothesis =>
      cases right with
      | nil => cases agree.length
      | cons other others =>
          obtain ⟨same, restAgree⟩ := LanesAgree.cons_iff.mp agree
          obtain ⟨sameOutcome, after⟩ := inductionHypothesis restAgree
          cases tested : mask.test start with
          | error error =>
              simp only [mapActive, tested]
              exact ⟨trivial, agree⟩
          | ok active =>
              cases active with
              | false =>
                  simp only [mapActive, tested]
                  exact ⟨sameOutcome, LanesAgree.cons_iff.mpr ⟨same, after⟩⟩
              | true =>
                  obtain rfl := same (ActiveMask.test_ok tested)
                  cases changed : body thread with
                  | error error =>
                      simp only [mapActive, tested, changed]
                      exact ⟨trivial, agree⟩
                  | ok updated =>
                      simp only [mapActive, tested, changed]
                      exact
                        ⟨sameOutcome,
                          LanesAgree.cons_iff.mpr ⟨fun _ => rfl, after⟩⟩

/-- It leaves the other lanes as they are. -/
theorem mapActive_idle
    (body : Thread → Except SimError Thread)
    (threads : List Thread) :
    LanesAgree (Idle mask) start threads
      (mapActive mask body start threads).1 := by
  induction threads generalizing start with
  | nil => exact LanesAgree.refl _ _ _
  | cons thread rest inductionHypothesis =>
      have after := @inductionHypothesis (start + 1)
      cases tested : mask.test start with
      | error error =>
          simp only [mapActive, tested]
          exact LanesAgree.refl _ _ _
      | ok active =>
          cases active with
          | false =>
              simp only [mapActive, tested]
              exact LanesAgree.cons_iff.mpr ⟨fun _ => rfl, after⟩
          | true =>
              have notIdle : ¬ Idle mask start := by
                rw [Idle, ActiveMask.test_ok tested]
                exact Bool.true_eq_false.mp
              cases changed : body thread with
              | error error =>
                  simp only [mapActive, tested, changed]
                  exact LanesAgree.refl _ _ _
              | ok updated =>
                  simp only [mapActive, tested, changed]
                  exact
                    LanesAgree.cons_iff.mpr
                      ⟨fun idle => (notIdle idle).elim, after⟩

/-- What is gathered from the active lanes tells nothing of the others. -/
theorem gatherActive_agree
    {α : Type}
    (body : Thread → Except SimError α)
    (agree : LanesAgree (Active mask) start left right) :
    gatherActive mask body start left =
      gatherActive mask body start right := by
  induction left generalizing start right with
  | nil =>
      obtain rfl := List.eq_nil_of_length_eq_zero agree.length.symm
      rfl
  | cons thread rest inductionHypothesis =>
      cases right with
      | nil => cases agree.length
      | cons other others =>
          obtain ⟨same, restAgree⟩ := LanesAgree.cons_iff.mp agree
          rw [gatherActive, gatherActive, inductionHypothesis restAgree]
          cases tested : mask.test start with
          | error error => rfl
          | ok active =>
              cases active with
              | false => rfl
              | true =>
                  obtain rfl := same (ActiveMask.test_ok tested)
                  rfl

/-- Nor do the lanes that take a branch. -/
theorem takenMask_agree
    (agree : LanesAgree (Active mask) start left right)
    (taken : ActiveMask) :
    takenMask mask start left taken = takenMask mask start right taken := by
  induction left generalizing start right taken with
  | nil =>
      obtain rfl := List.eq_nil_of_length_eq_zero agree.length.symm
      rfl
  | cons thread rest inductionHypothesis =>
      cases right with
      | nil => cases agree.length
      | cons other others =>
          obtain ⟨same, restAgree⟩ := LanesAgree.cons_iff.mp agree
          rw [takenMask, takenMask]
          cases tested : mask.test start with
          | error error => rfl
          | ok active =>
              cases active with
              | false => exact inductionHypothesis restAgree taken
              | true =>
                  obtain rfl := same (ActiveMask.test_ok tested)
                  exact inductionHypothesis restAgree _

/-- Only active lanes are gathered from. -/
theorem gatherActive_active
    {α : Type}
    {body : Thread → Except SimError α}
    {values : List (Nat × α)}
    (gathered : gatherActive mask body start left = .ok values) :
    ∀ entry ∈ values, Active mask entry.1 := by
  induction left generalizing start values with
  | nil =>
      cases gathered
      exact nofun
  | cons thread rest inductionHypothesis =>
      obtain ⟨active, tested, remaining⟩ := except_bind_ok.mp gathered
      cases active with
      | false => exact inductionHypothesis remaining
      | true =>
          obtain ⟨value, _, others⟩ := except_bind_ok.mp remaining
          obtain ⟨restValues, restGathered, isList⟩ :=
            except_bind_ok.mp others
          cases isList
          intro entry member
          rcases List.mem_cons.mp member with rfl | inRest
          · exact ActiveMask.test_ok tested
          · exact inductionHypothesis restGathered entry inRest

/-- Writing loaded values to active lanes is alike on both sides. -/
theorem writeLanes_agree
    (dst : Int)
    {values : List (Nat × Word)}
    (toActive : ∀ entry ∈ values, Active mask entry.1)
    (agree : LanesAgree (Active mask) 0 left right) :
    (writeLanes dst values left).2 = (writeLanes dst values right).2 ∧
      LanesAgree (Active mask) 0 (writeLanes dst values left).1
        (writeLanes dst values right).1 := by
  induction values generalizing left right with
  | nil => exact ⟨rfl, agree⟩
  | cons entry rest inductionHypothesis =>
      obtain ⟨lane, value⟩ := entry
      have isActive := toActive _ List.mem_cons_self
      have sameThread :=
        agree.lanes lane ((Nat.zero_add lane).symm ▸ isActive)
      have toRest :
          ∀ entry ∈ rest, Active mask entry.1 :=
        fun entry member => toActive entry (List.mem_cons_of_mem _ member)
      unfold writeLanes
      rw [sameThread]
      split
      · exact inductionHypothesis toRest agree
      · split
        · exact ⟨rfl, agree⟩
        · exact inductionHypothesis toRest (agree.set lane _)

/-- And leaves the other lanes as they are. -/
theorem writeLanes_idle
    (dst : Int)
    {values : List (Nat × Word)}
    (toActive : ∀ entry ∈ values, Active mask entry.1)
    (threads : List Thread) :
    LanesAgree (Idle mask) 0 threads (writeLanes dst values threads).1 := by
  induction values generalizing threads with
  | nil => exact LanesAgree.refl _ _ _
  | cons entry rest inductionHypothesis =>
      obtain ⟨lane, value⟩ := entry
      have isActive := toActive _ List.mem_cons_self
      have notIdle : ¬ Idle mask (0 + lane) := by
        rw [Nat.zero_add, Idle, isActive]
        exact Bool.true_eq_false.mp
      have toRest :
          ∀ entry ∈ rest, Active mask entry.1 :=
        fun entry member => toActive entry (List.mem_cons_of_mem _ member)
      unfold writeLanes
      split
      · exact inductionHypothesis toRest threads
      · split
        · exact LanesAgree.refl _ _ _
        · exact
            (LanesAgree.set_off notIdle threads _).trans
              (inductionHypothesis toRest _)

end Loops

/-! ## Coupled instructions -/

/-- Two warps agree on their control state and their active lanes. -/
structure Agree (mask : ActiveMask) (left right : Warp) : Prop where
  warpPc : left.warpPc = right.warpPc
  activeMask : left.activeMask = right.activeMask
  reconvergencePc : left.reconvergencePc = right.reconvergencePc
  simtStack : left.simtStack = right.simtStack
  active : LanesAgree (Active mask) 0 left.threads right.threads

/--
Two executions so far: they share the memory system, their warps agree on the
lanes active on entry, and the others are as on entry.
-/
structure Isolated
    (mask : ActiveMask)
    (leftEntry rightEntry : Warp)
    (left right : Warp × MemorySystem) : Prop where
  memory : left.2 = right.2
  agree : Agree mask left.1 right.1
  leftIdle : LanesAgree (Idle mask) 0 leftEntry.threads left.1.threads
  rightIdle : LanesAgree (Idle mask) 0 rightEntry.threads right.1.threads

section Coupled

variable {mask : ActiveMask}
variable {leftEntry rightEntry : Warp}

/-- Memory operations see the memory system only. -/
theorem onMemory_coupled
    {α : Type}
    (operation : MemoryM α) :
    Coupled (Isolated mask leftEntry rightEntry)
      (onMemory operation) (onMemory operation) := by
  rintro ⟨leftWarp, memory⟩ ⟨rightWarp, _⟩ ⟨rfl, agree, leftIdle, rightIdle⟩
  unfold onMemory
  dsimp only
  cases operation memory with
  | ok value after => exact .ok ⟨rfl, agree, leftIdle, rightIdle⟩
  | error error after => exact .error ⟨rfl, agree, leftIdle, rightIdle⟩

/-- A lifted outcome is the same on both sides. -/
theorem liftExcept_coupled
    {α : Type}
    (result : Except SimError α) :
    Coupled (Isolated mask leftEntry rightEntry)
      (liftExcept result) (liftExcept result) := by
  intro left right isolated
  cases result with
  | ok value => exact .ok isolated
  | error error => exact .error isolated

/-- Changes of the control state alone keep executions isolated. -/
theorem modifyWarp_coupled
    {leftUpdate rightUpdate : Warp → Warp}
    (control :
      ∀ left right,
        Agree mask left right →
        Agree mask (leftUpdate left) (rightUpdate right))
    (leftThreads : ∀ warp, (leftUpdate warp).threads = warp.threads)
    (rightThreads : ∀ warp, (rightUpdate warp).threads = warp.threads) :
    Coupled (Isolated mask leftEntry rightEntry)
      (modifyWarp leftUpdate) (modifyWarp rightUpdate) := by
  rintro left right ⟨memory, agree, leftIdle, rightIdle⟩
  refine .ok ⟨memory, control _ _ agree, ?_, ?_⟩
  · rw [leftThreads]
    exact leftIdle
  · rw [rightThreads]
    exact rightIdle

/-- Threads changed alike in active lanes only keep executions isolated. -/
theorem Isolated.withThreads
    {left right : Warp × MemorySystem}
    (isolated : Isolated mask leftEntry rightEntry left right)
    {leftThreads rightThreads : List Thread}
    (active : LanesAgree (Active mask) 0 leftThreads rightThreads)
    (leftIdle : LanesAgree (Idle mask) 0 left.1.threads leftThreads)
    (rightIdle : LanesAgree (Idle mask) 0 right.1.threads rightThreads) :
    Isolated mask leftEntry rightEntry
      ({ left.1 with threads := leftThreads }, left.2)
      ({ right.1 with threads := rightThreads }, right.2) where
  memory := isolated.memory
  agree :=
    { warpPc := isolated.agree.warpPc
      activeMask := isolated.agree.activeMask
      reconvergencePc := isolated.agree.reconvergencePc
      simtStack := isolated.agree.simtStack
      active := active }
  leftIdle := isolated.leftIdle.trans leftIdle
  rightIdle := isolated.rightIdle.trans rightIdle

/-- The per-lane loop keeps executions isolated. -/
theorem forActiveThreads_coupled
    (body : Thread → Except SimError Thread) :
    Coupled (Isolated mask leftEntry rightEntry)
      (forActiveThreads mask body) (forActiveThreads mask body) := by
  intro left right isolated
  obtain ⟨sameOutcome, active⟩ :=
    mapActive_agree body isolated.agree.active
  have after :=
    isolated.withThreads active
      (mapActive_idle body left.1.threads)
      (mapActive_idle body right.1.threads)
  unfold forActiveThreads
  generalize mapActive mask body 0 left.1.threads = leftLoop at *
  generalize mapActive mask body 0 right.1.threads = rightLoop at *
  obtain ⟨leftThreads, outcome⟩ := leftLoop
  obtain ⟨rightThreads, _⟩ := rightLoop
  obtain rfl := sameOutcome
  cases outcome with
  | ok _ => exact .ok after
  | error error => exact .error after

/-- So does writing loaded values to active lanes. -/
theorem writeBack_coupled
    (dst : Int)
    {values : List (Nat × Word)}
    (toActive : ∀ entry ∈ values, Active mask entry.1) :
    Coupled (Isolated mask leftEntry rightEntry)
      (writeBack dst values) (writeBack dst values) := by
  intro left right isolated
  obtain ⟨sameOutcome, active⟩ :=
    writeLanes_agree dst toActive isolated.agree.active
  have after :=
    isolated.withThreads active
      (writeLanes_idle dst toActive left.1.threads)
      (writeLanes_idle dst toActive right.1.threads)
  unfold writeBack
  generalize writeLanes dst values left.1.threads = leftLoop at *
  generalize writeLanes dst values right.1.threads = rightLoop at *
  obtain ⟨leftThreads, outcome⟩ := leftLoop
  obtain ⟨rightThreads, _⟩ := rightLoop
  obtain rfl := sameOutcome
  cases outcome with
  | ok _ => exact .ok after
  | error error => exact .error after

/-- Setting the pc and the shadow pcs of the active lanes. -/
theorem advanceTo_coupled
    (pc : Nat) :
    Coupled (Isolated mask leftEntry rightEntry)
      (advanceTo mask pc) (advanceTo mask pc) := by
  refine
    .bind (modifyWarp_coupled (fun left right agree => ?_) (fun _ => rfl)
      fun _ => rfl) fun _ => forActiveThreads_coupled (shadowThread pc)
  exact { agree with warpPc := rfl }

end Coupled

/-! ## Opcodes -/

section Opcodes

variable {left right : Warp}

/-- Executions of one instruction on two warps, isolated from their idle lanes. -/
abbrev CoupledOn
    (left right : Warp)
    (first second : ExecM ExecutionResult) : Prop :=
  Coupled (Isolated left.activeMask left right) first second

theorem executeThreads_coupled
    (agree : Agree left.activeMask left right)
    (body : Thread → Except SimError Thread) :
    CoupledOn left right
      (executeThreads left body) (executeThreads right body) := by
  unfold executeThreads
  rw [← agree.activeMask, ← agree.warpPc]
  exact
    (forActiveThreads_coupled body).bind fun _ =>
      (advanceTo_coupled _).bind fun _ => .pure _

theorem loadLanes_coupled
    (inst : Instruction)
    {lanes : List (Nat × Nat)}
    (toActive : ∀ entry ∈ lanes, Active left.activeMask entry.1) :
    CoupledOn left right (loadLanes inst lanes) (loadLanes inst lanes) := by
  cases lanes with
  | nil => exact .pure _
  | cons first rest =>
      refine (onMemory_coupled _).bind fun loaded => ?_
      refine (writeBack_coupled inst.dst fun entry member => ?_).bind
        fun _ => .pure _
      have isLane := (List.of_mem_zip member).1
      obtain ⟨lane, isEntry, sameLane⟩ := List.mem_map.mp isLane
      rw [← sameLane]
      exact toActive lane isEntry

theorem executeLoad_coupled
    (agree : Agree left.activeMask left right)
    (inst : Instruction) :
    CoupledOn left right (executeLoad inst left) (executeLoad inst right) := by
  unfold executeLoad
  rw [← agree.activeMask, ← agree.warpPc,
    ← gatherActive_agree _ agree.active]
  cases gathered :
      gatherActive left.activeMask (effectiveAddress inst.src1 inst) 0
        left.threads with
  | error error =>
      exact fun _ _ isolated => .error isolated
  | ok lanes =>
      have loaded :=
        @loadLanes_coupled left right inst lanes (gatherActive_active gathered)
      exact
        loaded.bind fun result =>
          (advanceTo_coupled _).bind fun _ => .pure result

theorem executeStore_coupled
    (agree : Agree left.activeMask left right)
    (operation : List (Nat × Word) → MemoryM WarpMemoryResult)
    (inst : Instruction) :
    CoupledOn left right
      (executeStore operation inst left)
      (executeStore operation inst right) := by
  unfold executeStore
  rw [← agree.activeMask, ← agree.warpPc,
    ← gatherActive_agree _ agree.active]
  refine (liftExcept_coupled _).bind fun lanes => ?_
  refine Coupled.bind ?_ fun _ => (advanceTo_coupled _).bind fun _ => .pure _
  cases lanes.map Prod.snd with
  | nil => exact .pure _
  | cons first rest => exact (onMemory_coupled _).bind fun _ => .pure _

theorem executeBranch_coupled
    (agree : Agree left.activeMask left right)
    (inst : Instruction) :
    CoupledOn left right
      (executeBranch inst left) (executeBranch inst right) := by
  unfold executeBranch
  rw [← agree.activeMask, ← agree.warpPc, ← agree.reconvergencePc,
    ← takenMask_agree agree.active]
  refine (liftExcept_coupled _).bind fun taken => ?_
  split
  · exact (advanceTo_coupled _).bind fun _ => .pure _
  · split
    · exact (advanceTo_coupled _).bind fun _ => .pure _
    · refine
        Coupled.bind ?_ fun _ => (advanceTo_coupled _).bind fun _ => .pure _
      refine
        modifyWarp_coupled (fun first second same => ?_) (fun _ => rfl)
          fun _ => rfl
      exact
        { same with
          activeMask := rfl
          simtStack := congrArg (List.cons _) same.simtStack }

theorem executeSsy_coupled
    (agree : Agree left.activeMask left right)
    (inst : Instruction) :
    CoupledOn left right (executeSsy inst left) (executeSsy inst right) := by
  unfold executeSsy
  rw [← agree.activeMask, ← agree.warpPc, ← agree.reconvergencePc]
  refine Coupled.bind ?_ fun _ => (advanceTo_coupled _).bind fun _ => .pure _
  refine
    modifyWarp_coupled (fun first second same => ?_) (fun _ => rfl)
      fun _ => rfl
  exact
    { same with
      reconvergencePc := rfl
      simtStack := congrArg (List.cons _) same.simtStack }

theorem executeBarrier_coupled
    (agree : Agree left.activeMask left right) :
    CoupledOn left right (executeBarrier left) (executeBarrier right) := by
  unfold executeBarrier
  rw [← agree.activeMask, ← agree.warpPc, ← agree.active.length]
  split
  · exact .throw _
  · exact (advanceTo_coupled _).bind fun _ => .pure _

theorem executeSync_coupled
    (agree : Agree left.activeMask left right) :
    CoupledOn left right (executeSync left) (executeSync right) := by
  unfold executeSync Warp.popSimtStack
  rw [← agree.activeMask, ← agree.warpPc, ← agree.simtStack]
  cases left.simtStack with
  | nil => exact .throw _
  | cons nextPath below =>
      refine
        Coupled.bind ?_ fun _ => (advanceTo_coupled _).bind fun _ => .pure _
      -- The entry warp, with the path resumed, replaces the current one.
      rintro ⟨_, memory⟩ ⟨_, _⟩ ⟨rfl, _⟩
      exact
        .ok
          { memory := rfl
            agree :=
              { warpPc := rfl
                activeMask := rfl
                reconvergencePc := rfl
                simtStack := rfl
                active := agree.active }
            leftIdle := .refl _ _ _
            rightIdle := .refl _ _ _ }

end Opcodes

/--
One instruction on two warps that agree on their control state and active
lanes, with one memory system, ends alike, and the idle lanes stay as they are.
-/
theorem execute_isolated
    {left right : Warp}
    (agree : Agree left.activeMask left right)
    (inst : Instruction)
    (memory : MemorySystem) :
    Alike (Isolated left.activeMask left right)
      (execute inst (left, memory)) (execute inst (right, memory)) := by
  have start :
      Isolated left.activeMask left right (left, memory) (right, memory) :=
    ⟨rfl, agree, .refl _ _ _, .refl _ _ _⟩
  refine
    (?_ : CoupledOn left right (executeOpcode inst left)
      (executeOpcode inst right)) _ _ start
  unfold executeOpcode
  cases inst.opcode with
  | add => exact executeThreads_coupled agree _
  | sub => exact executeThreads_coupled agree _
  | mul => exact executeThreads_coupled agree _
  | mov => exact executeThreads_coupled agree _
  | load => exact executeLoad_coupled agree inst
  | store => exact executeStore_coupled agree _ inst
  | atomicAdd => exact executeStore_coupled agree _ inst
  | cmp => exact executeThreads_coupled agree _
  | branch => exact executeBranch_coupled agree inst
  | ssy => exact executeSsy_coupled agree inst
  | sync => exact executeSync_coupled agree
  | barrier => exact executeBarrier_coupled agree
  | unknown => exact .throw _

/-- Two lanes, of which the first is active, and a value in the second. -/
def halfActive (value : Word) : Warp :=
  { Warp.ofThreads 0
      [Thread.new 0 0 0 0 0, (Thread.new 1 0 1 0 1).seed 2 value] with
    activeMask := 1 }

/-- A store of the first lane does not see the value of the second. -/
theorem execute_isolated_store :
    Alike (Isolated 1 (halfActive 7) (halfActive 9))
      (execute ⟨.store, -1, 2, -1, 0⟩ (halfActive 7, MemorySystem.minimal 4))
      (execute ⟨.store, -1, 2, -1, 0⟩
        (halfActive 9, MemorySystem.minimal 4)) := by
  refine
    @execute_isolated (halfActive 7) (halfActive 9)
      ⟨rfl, rfl, rfl, rfl, rfl, fun lane isActive => ?_⟩ _ _
  cases lane with
  | zero => rfl
  | succ lane =>
      change (1#32).getLsbD (0 + (lane + 1)) = true at isActive
      simp at isActive

end Isolation

end SimSm
