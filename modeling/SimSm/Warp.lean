import SimSm.Instruction

namespace SimSm

/-!
# Threads and warps

A thread owns thirty-two registers, a shadow pc and a predicate.  A warp owns
its threads, the pc they share, the active mask and the SIMT stack of paths
that are still to be executed.
-/

/-- A register file with `numRegisters` registers. -/
structure RegisterFile (numRegisters : Nat) where
  registers : Vector Word numRegisters
  deriving DecidableEq

namespace RegisterFile

/-- A zeroed register file. -/
def new (numRegisters : Nat) : RegisterFile numRegisters where
  registers := Vector.replicate numRegisters 0

/--
Read a register.  The index is the instruction's `int` operand, which the call
converts to `size_t`, so every negative operand is out of bounds.
-/
def read (file : RegisterFile n) (operand : Int) : Except SimError Word :=
  if inBounds : sizeT operand < n then
    .ok file.registers[sizeT operand]
  else
    .error .registerRead

/-- Write a register, with the same bounds check as `read`. -/
def write
    (file : RegisterFile n)
    (operand : Int)
    (value : Word) :
    Except SimError (RegisterFile n) :=
  if inBounds : sizeT operand < n then
    .ok { registers := file.registers.set (sizeT operand) value }
  else
    .error .registerWrite

end RegisterFile

/-- Register operands can be written as literals. -/
instance neZero_numRegisters : NeZero 32 :=
  ⟨by decide⟩

/-- One simulated thread. -/
structure Thread where
  globalId : Nat
  blockId : Nat
  localId : Nat
  warpId : Nat
  laneId : Nat
  registers : RegisterFile 32
  pc : Int
  predicate : Bool
  deriving DecidableEq

namespace Thread

/-- A fresh thread: zeroed registers, pc zero and a false predicate. -/
def new (globalId blockId localId warpId laneId : Nat) : Thread where
  globalId := globalId
  blockId := blockId
  localId := localId
  warpId := warpId
  laneId := laneId
  registers := RegisterFile.new 32
  pc := 0
  predicate := false

/-- A thread with one of its registers written before launch. -/
def seed (thread : Thread) (register : Fin 32) (value : Word) : Thread :=
  { thread with
    registers :=
      { registers := thread.registers.registers.set register value } }

/-- The five identifiers a thread keeps for its whole life. -/
def identity (thread : Thread) : Nat × Nat × Nat × Nat × Nat :=
  (thread.globalId, thread.blockId, thread.localId,
    thread.warpId, thread.laneId)

end Thread

/-- The `bitset<32>` of active lanes. -/
abbrev ActiveMask := BitVec 32

namespace ActiveMask

/-- `bitset::test`, which throws on an index outside the set. -/
def test (mask : ActiveMask) (lane : Nat) : Except SimError Bool :=
  if lane < 32 then
    .ok (mask.getLsbD lane)
  else
    .error .bitsetTest

/-- `bitset::set` at one lane. -/
def set (mask : ActiveMask) (lane : Nat) : ActiveMask :=
  mask ||| BitVec.twoPow 32 lane

/-- `bitset::count`. -/
def count (mask : ActiveMask) : Nat :=
  (List.range 32).countP fun lane => mask.getLsbD lane

/-- The mask whose active lanes are exactly the first `lanes` ones. -/
def full (lanes : Nat) : ActiveMask :=
  BitVec.ofNat 32 (2 ^ lanes - 1)

theorem test_of_lt
    {mask : ActiveMask}
    {lane : Nat}
    (inRange : lane < 32) :
    mask.test lane = .ok (mask.getLsbD lane) := by
  simp [test, inRange]

/-- A test that succeeds tells the lane. -/
theorem test_ok
    {mask : ActiveMask}
    {lane : Nat}
    {active : Bool}
    (tested : mask.test lane = .ok active) :
    mask.getLsbD lane = active := by
  unfold test at tested
  split at tested
  · cases tested
    rfl
  · cases tested

@[simp] theorem getLsbD_set
    (mask : ActiveMask)
    (lane query : Nat) :
    (mask.set lane).getLsbD query =
      (mask.getLsbD query || (decide (query = lane) && decide (lane < 32))) := by
  by_cases same : query = lane
  · subst same
    simp [set, BitVec.getLsbD_twoPow]
  · simp [set, BitVec.getLsbD_twoPow, same, Ne.symm same]

@[simp] theorem getLsbD_full
    (lanes query : Nat) :
    (full lanes).getLsbD query =
      (decide (query < 32) && decide (query < lanes)) := by
  simp [full, BitVec.getLsbD_ofNat, Nat.testBit_two_pow_sub_one]

/-- The lanes of one mask that are not in another. -/
theorem getLsbD_diff
    (mask taken : ActiveMask)
    (lane : Nat) :
    (mask &&& ~~~taken).getLsbD lane =
      (mask.getLsbD lane && !taken.getLsbD lane) := by
  by_cases inRange : lane < 32
  · simp [inRange]
  · rw [BitVec.getLsbD_of_ge _ _ (Nat.not_lt.mp inRange),
      BitVec.getLsbD_of_ge mask _ (Nat.not_lt.mp inRange), Bool.false_and]

/-- Masks are equal when they agree on every lane. -/
theorem eq_of_lanes
    {first second : ActiveMask}
    (same :
      ∀ lane, lane < 32 →
        first.getLsbD lane = second.getLsbD lane) :
    first = second :=
  BitVec.eq_of_getLsbD_eq same

/-- A mask is empty when it has no active lane. -/
theorem eq_zero_iff
    {mask : ActiveMask} :
    mask = 0 ↔ ∀ lane, mask.getLsbD lane = false := by
  constructor
  · rintro rfl lane
    simp
  · intro none
    exact eq_of_lanes fun lane _ => by simp [none lane]

/-- A proper part of a mask leaves some lane out. -/
theorem diff_ne_zero
    {mask part : ActiveMask}
    (isPart :
      ∀ {lane : Nat},
        part.getLsbD lane = true → mask.getLsbD lane = true)
    (proper : part ≠ mask) :
    mask &&& ~~~part ≠ 0 := by
  intro empty
  apply proper
  apply eq_of_lanes
  intro lane _
  have noOther := eq_zero_iff.mp empty lane
  rw [getLsbD_diff] at noOther
  rw [Bool.eq_iff_iff]
  refine ⟨isPart, fun active => ?_⟩
  simpa only [active, Bool.true_and, Bool.not_eq_false'] using noOther

/-- A mask other than zero has a lane. -/
theorem exists_lane
    {mask : ActiveMask}
    (nonempty : mask ≠ 0) :
    ∃ lane, mask.getLsbD lane = true := by
  by_contra none
  apply nonempty
  rw [eq_zero_iff]
  intro lane
  rw [← Bool.not_eq_true]
  exact fun active => none ⟨lane, active⟩

end ActiveMask

/-- The scheduling state of a warp. -/
inductive WarpState where
  | ready
  | stalled
  | stalledAtBarrier
  | completed
  deriving Repr, DecidableEq

/-- One entry of the SIMT stack: a reconvergence token or a deferred path. -/
structure SIMTStackEntry where
  activeMask : ActiveMask
  targetPc : Nat
  reconvergencePc : Nat
  deriving DecidableEq

/-- One warp.  The head of `simtStack` is the back of the source's vector. -/
structure Warp where
  warpId : Nat
  threads : List Thread := []
  state : WarpState := .ready
  warpPc : Nat := 0
  stallCyclesRemaining : Nat := 0
  priority : Int := 0
  readySinceCycle : Nat := 0
  currentWaitCycles : Nat := 0
  starvationRecorded : Bool := false
  activeMask : ActiveMask := 0
  reconvergencePc : Nat := 2 ^ 64 - 1
  simtStack : List SIMTStackEntry := []
  deriving DecidableEq

namespace Warp

/-- Append a thread and activate its lane. -/
def addThread (warp : Warp) (thread : Thread) : Warp :=
  let laneId := warp.threads.length
  { warp with
    activeMask :=
      if laneId < 32 then warp.activeMask.set laneId else warp.activeMask
    threads := warp.threads ++ [thread] }

/-- A fresh warp of the given threads. -/
def ofThreads (warpId : Nat) (threads : List Thread) : Warp :=
  threads.foldl addThread { warpId := warpId }

/-- Push one entry on the SIMT stack. -/
def pushSimtStack (warp : Warp) (entry : SIMTStackEntry) : Warp :=
  { warp with simtStack := entry :: warp.simtStack }

/-- Pop the SIMT stack, when it has an entry. -/
def popSimtStack (warp : Warp) : Option (SIMTStackEntry × Warp) :=
  match warp.simtStack with
  | [] => none
  | entry :: rest => some (entry, { warp with simtStack := rest })

/-- Reset the wait counter and the starvation flag. -/
def resetWaitCycles (warp : Warp) : Warp :=
  { warp with currentWaitCycles := 0, starvationRecorded := false }

/-- Count one more cycle spent ready without being issued. -/
def incrementWaitCycles (warp : Warp) : Warp :=
  { warp with currentWaitCycles := warp.currentWaitCycles + 1 }

/-- Report, once per wait, that the warp has waited over a thousand cycles. -/
def checkAndSetStarvation (warp : Warp) : Bool × Warp :=
  if !warp.starvationRecorded && decide (1000 < warp.currentWaitCycles) then
    (true, { warp with starvationRecorded := true })
  else
    (false, warp)

/-- Stall for a positive number of cycles. -/
def stall (warp : Warp) (cycles : Nat) : Warp :=
  if 0 < cycles then
    resetWaitCycles
      { warp with stallCyclesRemaining := cycles, state := .stalled }
  else
    warp

/-- Count one stall cycle down; the last one makes the warp ready. -/
def tickStall (warp : Warp) (currentCycle : Nat) : Warp :=
  if warp.state = .stalled ∧ 0 < warp.stallCyclesRemaining then
    if warp.stallCyclesRemaining - 1 = 0 then
      { warp with
        stallCyclesRemaining := warp.stallCyclesRemaining - 1
        state := .ready
        readySinceCycle := currentCycle }
    else
      { warp with
        stallCyclesRemaining := warp.stallCyclesRemaining - 1 }
  else
    warp

/-- Mark the warp as having finished the kernel. -/
def setCompleted (warp : Warp) : Warp :=
  { warp with state := .completed }

/-- Mark the warp as waiting at a barrier. -/
def setStalledAtBarrier (warp : Warp) : Warp :=
  resetWaitCycles { warp with state := .stalledAtBarrier }

/-- Make the warp ready, recording since when. -/
def setReady (warp : Warp) (currentCycle : Nat) : Warp :=
  if warp.state ≠ .ready then
    { warp with state := .ready, readySinceCycle := currentCycle }
  else
    warp

/-- The block of the warp's first thread, by which an SM recognises blocks. -/
def blockId? (warp : Warp) : Option Nat :=
  warp.threads.head?.map Thread.blockId

/-- What identifies a warp for its whole life: its id and its threads' ids. -/
def identity (warp : Warp) : Nat × List (Nat × Nat × Nat × Nat × Nat) :=
  (warp.warpId, warp.threads.map Thread.identity)

end Warp

end SimSm
