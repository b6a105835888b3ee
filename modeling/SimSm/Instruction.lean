import Mathlib.Data.List.Basic
import Mathlib.Data.BitVec

namespace SimSm

/-!
# Instructions, kernels and errors

The core instruction set of the simulator.  Operands keep the `int` fields of
the source as integers; the places where the source converts them to `size_t`
or to a 32-bit `int` are the named conversions below.
-/

/-- A 32-bit `int` register or memory cell, with wrap-around arithmetic. -/
abbrev Word := BitVec 32

/-- Conversion of an integer expression to `size_t`. -/
@[irreducible] def sizeT (value : Int) : Nat :=
  (value % 2 ^ 64).toNat

/-- Conversion of a `size_t` to a 32-bit `int`. -/
@[irreducible] def toInt32 (value : Nat) : Int :=
  (value : Int).bmod (2 ^ 32)

/-- `size_t` addition of one, as in `warp_pc + 1`. -/
@[irreducible] def nextPc (pc : Nat) : Nat :=
  (pc + 1) % 2 ^ 64

/-- `size_t` addition of an `int` immediate, as in `warp_pc + inst.immediate`. -/
@[irreducible] def branchPc (pc : Nat) (immediate : Int) : Nat :=
  sizeT ((pc : Int) + immediate)

theorem nextPc_of_lt
    {pc : Nat}
    (inRange : pc + 1 < 2 ^ 64) :
    nextPc pc = pc + 1 := by
  unfold nextPc
  exact Nat.mod_eq_of_lt inRange

/-- A `size_t` in the range of `int` converts to itself. -/
theorem toInt32_of_lt
    {value : Nat}
    (inRange : value < 2 ^ 31) :
    toInt32 value = (value : Int) := by
  unfold toInt32
  exact Int.bmod_eq_of_le (by omega) (by omega)

theorem sizeT_natCast
    {value : Nat}
    (inRange : value < 2 ^ 64) :
    sizeT (value : Int) = value := by
  unfold sizeT
  omega

/-- A branch whose exact target fits in `size_t` reaches that target. -/
theorem branchPc_of_add
    {pc target : Nat}
    {immediate : Int}
    (exact : (pc : Int) + immediate = (target : Int))
    (inRange : target < 2 ^ 64) :
    branchPc pc immediate = target := by
  unfold branchPc
  rw [exact]
  exact sizeT_natCast inRange

/-- Every exception the modelled functions can throw. -/
inductive SimError where
  | bitsetTest
  | registerRead
  | registerWrite
  | globalMemory
  | sharedMemory
  | mixedAddressSpaces
  | syncEmptyStack
  | divergentBarrier
  | unknownOpcode
  | malformedBarrier
  | impossibleBlock
  | cacheDimensions
  | unsupportedReplacementPolicy (policyName : String)
  | fifoQueueEmpty
  | lruListEmpty
  | cacheSetEmpty
  | occupancyArguments
  | unknownSchedulerPolicy (policy : String)
  | itersTooLarge
  deriving Repr, DecidableEq

/--
Instruction opcodes.  `unknown` stands for every value of the enumeration's
underlying type outside the enumerators, which the executor rejects in its
`default` branch.
-/
inductive Opcode where
  | add
  | sub
  | mul
  | mov
  | load
  | store
  | cmp
  | branch
  | barrier
  | atomicAdd
  | ssy
  | sync
  | unknown
  deriving Repr, DecidableEq

/-- One instruction: `-1` in `src1` or `src2` means that no register is used. -/
structure Instruction where
  opcode : Opcode
  dst : Int
  src1 : Int
  src2 : Int
  immediate : Int
  deriving Repr, DecidableEq

/--
A kernel's instruction vector.  Its length is the `size()` of a vector, so it
is a `size_t`.
-/
structure Kernel where
  instructions : List Instruction
  lengthFits : instructions.length < 2 ^ 64

namespace Kernel

/-- The number of instructions. -/
def size (kernel : Kernel) : Nat :=
  kernel.instructions.length

/-- The instruction at `pc`, when `pc` lies inside the kernel. -/
def fetch? (kernel : Kernel) (pc : Nat) : Option Instruction :=
  kernel.instructions[pc]?

theorem size_lt (kernel : Kernel) : kernel.size < 2 ^ 64 :=
  kernel.lengthFits

theorem fetch?_lt
    {kernel : Kernel}
    {pc : Nat}
    {inst : Instruction}
    (fetched : kernel.fetch? pc = some inst) :
    pc < kernel.size :=
  (List.getElem?_eq_some_iff.mp fetched).1

theorem fetch?_eq_none_iff
    {kernel : Kernel}
    {pc : Nat} :
    kernel.fetch? pc = none ↔ kernel.size ≤ pc := by
  simp [fetch?, size]

/-- Inside a kernel, the fall-through pc does not wrap. -/
theorem nextPc_eq
    {kernel : Kernel}
    {pc : Nat}
    (inside : pc < kernel.size) :
    nextPc pc = pc + 1 := by
  have bound := kernel.size_lt
  exact nextPc_of_lt (by omega)

end Kernel

end SimSm
