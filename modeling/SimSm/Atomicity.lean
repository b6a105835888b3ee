import SimSm.MemoryPaths

namespace SimSm

/-!
# What a faulting instruction leaves behind

An instruction that throws leaves the warp as it was.  It leaves the memories as
they were too, except that a store or an atomic addition checks its bounds
access by access: the accesses before the first one out of bounds are done.
-/

open Outcome

namespace Atomicity

open MemorySystem

/-! ## Writes -/

/-- How a memory word and a value are combined, for the opcodes that write. -/
def combineOf (inst : Instruction) : Option (Word → Word → Word) :=
  if inst.opcode = .store then
    some fun _ value => value
  else if inst.opcode = .atomicAdd then
    some (· + ·)
  else
    none

/-- Cells after some writes in a row. -/
def applied
    (combine : Word → Word → Word)
    (data : Nat → Word)
    (writes : List (Nat × Word)) :
    Nat → Word :=
  writes.foldl
    (fun data write =>
      Function.update data write.1 (combine (data write.1) write.2))
    data

/-- The accesses before the first one that is out of bounds. -/
def FirstFault
    (size : Nat)
    (accesses before : List (Nat × Word)) : Prop :=
  ∃ access later,
    accesses = before ++ access :: later ∧
      (∀ inside ∈ before, inside.1 < size) ∧
      size ≤ access.1

/-- Without a first fault all accesses are in bounds. -/
theorem inside_or_firstFault
    (size : Nat)
    (accesses : List (Nat × Word)) :
    (∀ access ∈ accesses, access.1 < size) ∨
      ∃ before, FirstFault size accesses before := by
  induction accesses with
  | nil => exact Or.inl nofun
  | cons access rest inductionHypothesis =>
      by_cases inside : access.1 < size
      · rcases inductionHypothesis with
          allInside | ⟨before, fault, later, rfl, beforeInside, outside⟩
        · refine Or.inl fun other member => ?_
          rcases List.mem_cons.mp member with rfl | inRest
          · exact inside
          · exact allInside other inRest
        · refine
            Or.inr
              ⟨access :: before, fault, later, rfl, fun other member => ?_,
                outside⟩
          rcases List.mem_cons.mp member with rfl | inBefore
          · exact inside
          · exact beforeInside other inBefore
      · exact
          Or.inr
            ⟨[], access, rest, rfl, nofun, Nat.not_lt.mp inside⟩

/-- A shared access of a warp, by its offset. -/
def offset (access : Nat × Word) : Nat × Word :=
  (access.1 - sharedMemBase, access.2)

/-- A memory system with other shared cells. -/
def withShared (memory : MemorySystem) (data : Nat → Word) : MemorySystem :=
  { memory with sharedMemory := { memory.sharedMemory with data := data } }

/-- A memory system with other global cells. -/
def withGlobal (memory : MemorySystem) (data : Nat → Word) : MemorySystem :=
  { memory with globalMemory := { memory.globalMemory with data := data } }

/-- One access to shared memory writes a combined word or throws at once. -/
def WritesShared
    (combine : Word → Word → Word)
    (access : Nat → Word → MemoryM (Unit × Nat)) : Prop :=
  ∀ address value memory,
    access address value memory =
      if address < memory.sharedMemory.size then
        .ok ((), memory.config.sharedMemoryLatency)
          (withShared memory
            (applied combine memory.sharedMemory.data [(address, value)]))
      else
        .error .sharedMemory memory

/-- One access to global memory writes a combined word or throws at once. -/
def WritesGlobal
    (combine : Word → Word → Word)
    (access : Nat → Word → MemoryM Unit) : Prop :=
  ∀ address value memory,
    access address value memory =
      if address < memory.globalMemory.size then
        .ok ()
          (withGlobal memory
            (applied combine memory.globalMemory.data [(address, value)]))
      else
        .error .globalMemory memory

/-- The store of one shared cell. -/
theorem sharedStore_writes :
    WritesShared (fun _ value => value)
      (fun address value => do
        let latency ← sharedStore address value
        pure ((), latency)) := by
  intro address value memory
  by_cases inside : address < memory.sharedMemory.size
  · rw [if_pos inside]
    refine state_bind_ok.mpr ⟨memory.config.sharedMemoryLatency, _, ?_, rfl⟩
    refine state_bind_ok.mpr ⟨memory, memory, rfl, ?_⟩
    rw [SharedMemory.store, if_pos inside]
    rfl
  · rw [if_neg inside]
    refine state_bind_error.mpr (Or.inl ?_)
    refine state_bind_error.mpr (Or.inr ⟨memory, memory, rfl, ?_⟩)
    rw [SharedMemory.store, if_neg inside]
    rfl

/-- The atomic addition to one shared cell. -/
theorem sharedAdd_writes :
    WritesShared (· + ·)
      (fun address value => do
        let memory ← get
        let currentVal ← liftExcept (memory.sharedMemory.load address)
        let latency ← sharedStore address (currentVal + value)
        pure ((), latency)) := by
  intro address value memory
  by_cases inside : address < memory.sharedMemory.size
  · rw [if_pos inside]
    refine state_bind_ok.mpr ⟨memory, memory, rfl, ?_⟩
    refine
      state_bind_ok.mpr
        ⟨memory.sharedMemory.data address, memory, ?_, ?_⟩
    · rw [SharedMemory.load, if_pos inside]
      rfl
    · refine
        state_bind_ok.mpr ⟨memory.config.sharedMemoryLatency, _, ?_, rfl⟩
      refine state_bind_ok.mpr ⟨memory, memory, rfl, ?_⟩
      rw [SharedMemory.store, if_pos inside]
      rfl
  · rw [if_neg inside]
    refine state_bind_error.mpr (Or.inr ⟨memory, memory, rfl, ?_⟩)
    refine state_bind_error.mpr (Or.inl ?_)
    rw [SharedMemory.load, if_neg inside]
    rfl

/-- The store of one global cell. -/
theorem globalStore_writes :
    WritesGlobal (fun _ value => value) globalStore := by
  intro address value memory
  by_cases inside : address < memory.globalMemory.size
  · rw [if_pos inside]
    refine state_bind_ok.mpr ⟨memory, memory, rfl, ?_⟩
    rw [GlobalMemory.store, if_pos inside]
    rfl
  · rw [if_neg inside]
    refine state_bind_error.mpr (Or.inr ⟨memory, memory, rfl, ?_⟩)
    rw [GlobalMemory.store, if_neg inside]
    rfl

/-- The atomic addition to one global cell. -/
theorem globalAdd_writes :
    WritesGlobal (· + ·)
      (fun address value => do
        let currentVal ← globalLoad address
        globalStore address (currentVal + value)) := by
  intro address value memory
  by_cases inside : address < memory.globalMemory.size
  · rw [if_pos inside]
    refine
      state_bind_ok.mpr ⟨memory.globalMemory.data address, memory, ?_, ?_⟩
    · refine state_bind_ok.mpr ⟨memory, memory, rfl, ?_⟩
      rw [GlobalMemory.load, if_pos inside]
      rfl
    · rw [globalStore_writes, if_pos inside]
      rfl
  · rw [if_neg inside]
    refine state_bind_error.mpr (Or.inl ?_)
    refine state_bind_error.mpr (Or.inr ⟨memory, memory, rfl, ?_⟩)
    rw [GlobalMemory.load, if_neg inside]
    rfl

/-! ## Accesses in a row -/

section Rows

variable {combine : Word → Word → Word}
variable {accesses before : List (Nat × Word)}

/-- Shared accesses in bounds are all done. -/
theorem sharedAccesses_inside
    {access : Nat → Word → MemoryM (Unit × Nat)}
    (writes : WritesShared combine access)
    {memory : MemorySystem}
    (inside :
      ∀ entry ∈ accesses.map offset, entry.1 < memory.sharedMemory.size)
    (maxLatency : Nat) :
    ∃ result,
      sharedAccesses access accesses maxLatency memory =
        .ok result
          (withShared memory
            (applied combine memory.sharedMemory.data
              (accesses.map offset))) := by
  induction accesses generalizing memory maxLatency with
  | nil => exact ⟨_, rfl⟩
  | cons entry rest inductionHypothesis =>
      obtain ⟨address, value⟩ := entry
      have here := inside _ List.mem_cons_self
      dsimp only [offset] at here
      obtain ⟨result, others⟩ :=
        @inductionHypothesis
          (withShared memory
            (applied combine memory.sharedMemory.data
              [offset (address, value)]))
          (fun other member => inside other (List.mem_cons_of_mem _ member))
          (max maxLatency memory.config.sharedMemoryLatency)
      have wrote := writes (address - sharedMemBase) value memory
      rw [if_pos here] at wrote
      refine ⟨(() :: result.1, result.2), ?_⟩
      refine state_bind_ok.mpr ⟨_, _, wrote, ?_⟩
      exact state_bind_ok.mpr ⟨result, _, others, rfl⟩

/-- Before a first fault they are done as well, and the fault is thrown. -/
theorem sharedAccesses_fault
    {access : Nat → Word → MemoryM (Unit × Nat)}
    (writes : WritesShared combine access)
    {memory : MemorySystem}
    (fault :
      FirstFault memory.sharedMemory.size (accesses.map offset) before)
    (maxLatency : Nat) :
    sharedAccesses access accesses maxLatency memory =
      .error .sharedMemory
        (withShared memory
          (applied combine memory.sharedMemory.data before)) := by
  obtain ⟨faulting, later, shape, inside, outside⟩ := fault
  induction before generalizing accesses memory maxLatency with
  | nil =>
      obtain ⟨entry, rest, rfl, rfl, _⟩ := List.map_eq_cons_iff.mp shape
      obtain ⟨address, value⟩ := entry
      have threw := writes (address - sharedMemBase) value memory
      dsimp only [offset] at outside
      rw [if_neg (Nat.not_lt.mpr outside)] at threw
      exact state_bind_error.mpr (Or.inl threw)
  | cons first before inductionHypothesis =>
      obtain ⟨entry, rest, rfl, rfl, restShape⟩ :=
        List.map_eq_cons_iff.mp shape
      obtain ⟨address, value⟩ := entry
      have here := inside _ List.mem_cons_self
      dsimp only [offset] at here
      have others :=
        @inductionHypothesis rest
          (withShared memory
            (applied combine memory.sharedMemory.data
              [offset (address, value)]))
          (max maxLatency memory.config.sharedMemoryLatency) restShape
          (fun other member => inside other (List.mem_cons_of_mem _ member))
          outside
      have wrote := writes (address - sharedMemBase) value memory
      rw [if_pos here] at wrote
      refine state_bind_error.mpr (Or.inr ⟨_, _, wrote, ?_⟩)
      exact state_bind_error.mpr (Or.inl others)

/-- Global accesses in bounds are all done. -/
theorem globalAccesses_inside
    {access : Nat → Word → MemoryM Unit}
    (writes : WritesGlobal combine access)
    {memory : MemorySystem}
    (inside : ∀ entry ∈ accesses, entry.1 < memory.globalMemory.size) :
    ∃ result,
      globalAccesses access accesses memory =
        .ok result
          (withGlobal memory
            (applied combine memory.globalMemory.data accesses)) := by
  induction accesses generalizing memory with
  | nil => exact ⟨_, rfl⟩
  | cons entry rest inductionHypothesis =>
      obtain ⟨address, value⟩ := entry
      have here : address < memory.globalMemory.size :=
        inside _ List.mem_cons_self
      obtain ⟨result, others⟩ :=
        @inductionHypothesis
          (withGlobal memory
            (applied combine memory.globalMemory.data [(address, value)]))
          (fun other member => inside other (List.mem_cons_of_mem _ member))
      have wrote := writes address value memory
      rw [if_pos here] at wrote
      refine ⟨() :: result, ?_⟩
      refine state_bind_ok.mpr ⟨_, _, wrote, ?_⟩
      exact state_bind_ok.mpr ⟨result, _, others, rfl⟩

/-- Before a first fault they are done as well, and the fault is thrown. -/
theorem globalAccesses_fault
    {access : Nat → Word → MemoryM Unit}
    (writes : WritesGlobal combine access)
    {memory : MemorySystem}
    (fault : FirstFault memory.globalMemory.size accesses before) :
    globalAccesses access accesses memory =
      .error .globalMemory
        (withGlobal memory
          (applied combine memory.globalMemory.data before)) := by
  obtain ⟨faulting, later, rfl, inside, outside⟩ := fault
  induction before generalizing memory with
  | nil =>
      obtain ⟨address, value⟩ := faulting
      refine state_bind_error.mpr (Or.inl ?_)
      rw [writes, if_neg (Nat.not_lt.mpr outside)]
      rfl
  | cons first before inductionHypothesis =>
      obtain ⟨address, value⟩ := first
      have here : address < memory.globalMemory.size :=
        inside _ List.mem_cons_self
      have others :=
        @inductionHypothesis
          (withGlobal memory
            (applied combine memory.globalMemory.data [(address, value)]))
          (fun other member => inside other (List.mem_cons_of_mem _ member))
          outside
      have wrote := writes address value memory
      rw [if_pos here] at wrote
      refine state_bind_error.mpr (Or.inr ⟨_, _, wrote, ?_⟩)
      exact state_bind_error.mpr (Or.inl others)

end Rows

/-! ## Warp accesses -/

/--
Accesses of one warp instruction, all in one address space, of which the first
one out of bounds comes after others that change the memory.
-/
inductive PartialAccess
    (combine : Word → Word → Word)
    (memory : MemorySystem)
    (accesses : List (Nat × Word)) : Prop where
  | shared
      {before : List (Nat × Word)}
      (space : ∀ entry ∈ accesses, isShared entry.1 = true)
      (fault :
        FirstFault memory.sharedMemory.size (accesses.map offset) before)
      (changes :
        applied combine memory.sharedMemory.data before ≠
          memory.sharedMemory.data)
  | global
      {before : List (Nat × Word)}
      (space : ∀ entry ∈ accesses, isShared entry.1 = false)
      (fault : FirstFault memory.globalMemory.size accesses before)
      -- The caches, which are charged first, can serve the lines.
      (charged :
        ∃ latency charged,
          chargeTransactions writeLatency
              (coalesce (accesses.map Prod.fst) memory.l1Cache.lineSize)
              1 0 memory =
            .ok latency charged)
      (changes :
        applied combine memory.globalMemory.data before ≠
          memory.globalMemory.data)

/-- Some access is out of bounds. -/
theorem PartialAccess.ne_nil
    {combine : Word → Word → Word}
    {memory : MemorySystem}
    {accesses : List (Nat × Word)}
    (partialAccess : PartialAccess combine memory accesses) :
    accesses ≠ [] := by
  rintro rfl
  cases partialAccess with
  | shared _ fault _ =>
      obtain ⟨access, later, shape, _⟩ := fault
      simp at shape
  | global _ fault _ _ =>
      obtain ⟨access, later, shape, _⟩ := fault
      simp at shape

section WarpAccess

variable {combine : Word → Word → Word}
variable {onShared : Nat → Word → MemoryM (Unit × Nat)}
variable {onGlobal : Nat → Word → MemoryM Unit}
variable {accesses : List (Nat × Word)}
variable {memory after : MemorySystem}

/-- A warp access that throws did part of its writes or none. -/
theorem warpAccess_error
    (writesShared : WritesShared combine onShared)
    (writesGlobal : WritesGlobal combine onGlobal)
    {error : SimError}
    (threw :
      warpAccess writeLatency onShared onGlobal accesses memory =
        .error error after) :
    contents after = contents memory ∨
      PartialAccess combine memory accesses := by
  unfold warpAccess at threw
  cases addresses : accesses.map Prod.fst with
  | nil =>
      simp only [addresses] at threw
      cases threw
  | cons first rest =>
      simp only [addresses] at threw
      rw [← addresses] at threw
      split at threw
      · cases threw
        exact Or.inl rfl
      · rename_i notMixed
        have space := one_space notMixed
        split at threw
        · rename_i shared
          have allShared :
              ∀ entry ∈ accesses, isShared entry.1 = true :=
            fun entry member => (space entry member).trans shared
          obtain ⟨⟨⟩⟩ | ⟨_, _, got, threw⟩ := state_bind_error.mp threw
          obtain ⟨rfl, rfl⟩ := state_get_ok.mp got
          rcases inside_or_firstFault memory.sharedMemory.size
              (accesses.map offset) with
            inside | ⟨before, fault⟩
          · obtain ⟨result, ran⟩ :=
              sharedAccesses_inside writesShared inside 0
            rcases state_bind_error.mp threw with
              now | ⟨values, reached, _, later⟩
            · rw [ran] at now
              cases now
            · cases later
          · have ran := sharedAccesses_fault writesShared fault 0
            rcases state_bind_error.mp threw with
              now | ⟨values, reached, now, _⟩
            · rw [ran] at now
              cases now
              by_cases same :
                  applied combine memory.sharedMemory.data before =
                    memory.sharedMemory.data
              · refine Or.inl ?_
                rw [same]
                rfl
              · exact Or.inr (.shared allShared fault same)
            · rw [ran] at now
              cases now
        · rename_i isGlobal
          have allGlobal :
              ∀ entry ∈ accesses, isShared entry.1 = false :=
            fun entry member =>
              (space entry member).trans
                (Bool.eq_false_of_not_eq_true isGlobal)
          have keeps
              (lines : List Nat) :
              Keeps contents
                (chargeTransactions writeLatency lines 1 0) :=
            chargeTransactions_keeps writeLatency_keeps lines 1 0
          obtain ⟨⟨⟩⟩ | ⟨_, _, got, threw⟩ := state_bind_error.mp threw
          obtain ⟨rfl, rfl⟩ := state_get_ok.mp got
          rcases state_bind_error.mp threw with
            now | ⟨latency, charged, charges, performs⟩
          · exact Or.inl ((keeps _).of_error now)
          have sameContents := (keeps _).of_ok charges
          have sameGlobal := congrArg Prod.snd sameContents
          change charged.globalMemory = memory.globalMemory at sameGlobal
          rcases inside_or_firstFault charged.globalMemory.size accesses with
            inside | ⟨before, fault⟩
          · obtain ⟨result, ran⟩ := globalAccesses_inside writesGlobal inside
            rcases state_bind_error.mp performs with
              now | ⟨values, reached, _, later⟩
            · rw [ran] at now
              cases now
            · cases later
          · have ran := globalAccesses_fault writesGlobal fault
            rcases state_bind_error.mp performs with
              now | ⟨values, reached, now, _⟩
            · rw [ran] at now
              cases now
              rw [sameGlobal] at fault
              by_cases same :
                  applied combine memory.globalMemory.data before =
                    memory.globalMemory.data
              · refine Or.inl ?_
                rw [← sameContents, sameGlobal, same, ← sameGlobal]
                rfl
              · exact
                  Or.inr
                    (.global allGlobal fault ⟨latency, charged, charges⟩
                      same)
            · rw [ran] at now
              cases now

/-- A warp access whose first fault comes late throws after its writes. -/
theorem warpAccess_partial
    (writesShared : WritesShared combine onShared)
    (writesGlobal : WritesGlobal combine onGlobal)
    (partialAccess : PartialAccess combine memory accesses) :
    ∃ error after,
      warpAccess writeLatency onShared onGlobal accesses memory =
          .error error after ∧
        contents after ≠ contents memory := by
  have notMixed
      {shared : Bool}
      {first : Nat}
      {rest : List Nat}
      (addresses : accesses.map Prod.fst = first :: rest)
      (space : ∀ entry ∈ accesses, isShared entry.1 = shared) :
      isShared first = shared ∧
        ¬ ((first :: rest).any fun address =>
          isShared address != isShared first) = true := by
    have everywhere :
        ∀ address ∈ first :: rest, isShared address = shared := by
      rw [← addresses]
      intro address member
      obtain ⟨entry, isEntry, rfl⟩ := List.mem_map.mp member
      exact space entry isEntry
    have isFirst := everywhere first List.mem_cons_self
    refine ⟨isFirst, ?_⟩
    rw [List.any_eq_true]
    rintro ⟨address, member, other⟩
    rw [everywhere address member, isFirst, bne_self_eq_false] at other
    cases other
  unfold warpAccess
  cases addresses : accesses.map Prod.fst with
  | nil =>
      exact (partialAccess.ne_nil (List.map_eq_nil_iff.mp addresses)).elim
  | cons first rest =>
      dsimp only
      cases partialAccess with
      | @shared before space fault changes =>
          obtain ⟨shared, oneSpace⟩ := notMixed addresses space
          rw [if_neg oneSpace, if_pos shared]
          refine
            ⟨.sharedMemory,
              withShared memory
                (applied combine memory.sharedMemory.data before), ?_,
              fun same => changes (congrArg (fun kept => kept.1.data) same)⟩
          refine state_bind_error.mpr (Or.inr ⟨memory, memory, rfl, ?_⟩)
          exact
            state_bind_error.mpr
              (Or.inl (sharedAccesses_fault writesShared fault 0))
      | @global before space fault charged changes =>
          obtain ⟨isGlobal, oneSpace⟩ := notMixed addresses space
          obtain ⟨latency, middle, charges⟩ := charged
          have sameContents :=
            (chargeTransactions_keeps writeLatency_keeps _ _ _).of_ok charges
          have sameGlobal := congrArg Prod.snd sameContents
          change middle.globalMemory = memory.globalMemory at sameGlobal
          rw [← sameGlobal] at fault changes
          rw [if_neg oneSpace, if_neg (by rw [isGlobal]; exact Bool.false_ne_true)]
          refine
            ⟨.globalMemory,
              withGlobal middle
                (applied combine middle.globalMemory.data before), ?_, ?_⟩
          · refine state_bind_error.mpr (Or.inr ⟨memory, memory, rfl, ?_⟩)
            rw [addresses] at charges
            refine
              state_bind_error.mpr (Or.inr ⟨latency, middle, charges, ?_⟩)
            exact
              state_bind_error.mpr
                (Or.inl (globalAccesses_fault writesGlobal fault))
          · rw [← sameContents]
            exact fun same =>
              changes (congrArg (fun kept => kept.2.data) same)

end WarpAccess

/-- The memory operation of a writing opcode, as the executor calls it. -/
def operationOf (inst : Instruction) :
    List (Nat × Word) → MemoryM WarpMemoryResult :=
  if inst.opcode = .store then warpStore else warpAtomicAdd

/-- It throws after part of its writes exactly on a partial access. -/
theorem operationOf_error
    {inst : Instruction}
    {combine : Word → Word → Word}
    (isWrite : combineOf inst = some combine)
    {accesses : List (Nat × Word)}
    {memory : MemorySystem} :
    (∀ error after,
        operationOf inst accesses memory = .error error after →
        contents after = contents memory ∨
          PartialAccess combine memory accesses) ∧
      (PartialAccess combine memory accesses →
        ∃ error after,
          operationOf inst accesses memory = .error error after ∧
            contents after ≠ contents memory) := by
  have ofAccess
      {onShared : Nat → Word → MemoryM (Unit × Nat)}
      {onGlobal : Nat → Word → MemoryM Unit}
      (writesShared : WritesShared combine onShared)
      (writesGlobal : WritesGlobal combine onGlobal) :
      (∀ error after,
          (warpAccess writeLatency onShared onGlobal accesses >>=
              fun returned => pure returned.2) memory =
            .error error after →
          contents after = contents memory ∨
            PartialAccess combine memory accesses) ∧
        (PartialAccess combine memory accesses →
          ∃ error after,
            (warpAccess writeLatency onShared onGlobal accesses >>=
                fun returned => pure returned.2) memory =
              .error error after ∧
              contents after ≠ contents memory) := by
    constructor
    · intro error after threw
      rcases state_bind_error.mp threw with now | ⟨_, _, _, later⟩
      · exact warpAccess_error writesShared writesGlobal now
      · cases later
    · intro partialAccess
      obtain ⟨error, after, threw, changed⟩ :=
        warpAccess_partial writesShared writesGlobal partialAccess
      exact ⟨error, after, state_bind_error.mpr (Or.inl threw), changed⟩
  unfold combineOf at isWrite
  unfold operationOf
  split at isWrite
  · rename_i isStore
    cases isWrite
    rw [if_pos isStore]
    exact ofAccess sharedStore_writes globalStore_writes
  · rename_i notStore
    rw [if_neg notStore]
    split at isWrite
    · cases isWrite
      exact ofAccess sharedAdd_writes globalAdd_writes
    · cases isWrite

/-! ## Lane loops -/

open InstructionExecutor

/-- Whether a register can be read depends on its index alone. -/
theorem read_isOk
    (file other : RegisterFile 32)
    (operand : Int) :
    (∃ value, file.read operand = .ok value) ↔
      ∃ value, other.read operand = .ok value := by
  unfold RegisterFile.read
  by_cases inside : sizeT operand < 32
  · rw [dif_pos inside, dif_pos inside]
    constructor
    · exact fun _ => ⟨_, rfl⟩
    · exact fun _ => ⟨_, rfl⟩
  · rw [dif_neg inside, dif_neg inside]

/-- So does whether it can be written. -/
theorem write_isOk
    (file other : RegisterFile 32)
    (operand : Int)
    (value word : Word) :
    (∃ registers, file.write operand value = .ok registers) ↔
      ∃ registers, other.write operand word = .ok registers := by
  unfold RegisterFile.write
  by_cases inside : sizeT operand < 32
  · rw [dif_pos inside, dif_pos inside]
    constructor
    · exact fun _ => ⟨_, rfl⟩
    · exact fun _ => ⟨_, rfl⟩
  · rw [dif_neg inside, dif_neg inside]

/-- A body that fails for no active thread or for all of them. -/
def Uniform (body : Thread → Except SimError Thread) : Prop :=
  ∀ thread other,
    (∃ changed, body thread = .ok changed) →
    ∃ changed, body other = .ok changed

/-- The lane-loop bodies check their register indices only. -/
theorem threadBody?_uniform
    {inst : Instruction}
    {body : Thread → Except SimError Thread}
    (shape : threadBody? inst = some body) :
    Uniform body := by
  have arithmetic (operation : Word → Word → Word) :
      Uniform (arithmeticThread operation inst) := by
    rintro thread other ⟨changed, ran⟩
    simp only [arithmeticThread, except_bind_ok] at ran ⊢
    obtain ⟨val1, read1, val2, read2, registers, wrote, _⟩ := ran
    obtain ⟨other1, otherRead1⟩ :=
      (read_isOk _ other.registers _).mp ⟨val1, read1⟩
    obtain ⟨other2, otherRead2⟩ :=
      (read_isOk _ other.registers _).mp ⟨val2, read2⟩
    obtain ⟨otherRegisters, otherWrote⟩ :=
      (write_isOk _ other.registers _ _ (operation other1 other2)).mp
        ⟨registers, wrote⟩
    exact
      ⟨_, other1, otherRead1, other2, otherRead2, otherRegisters, otherWrote,
        rfl⟩
  unfold threadBody? at shape
  split at shape
  · cases shape
    exact arithmetic _
  · cases shape
    exact arithmetic _
  · cases shape
    exact arithmetic _
  · cases shape
    rintro thread other ⟨changed, ran⟩
    unfold movThread at ran ⊢
    split at ran
    · rename_i immediate
      rw [if_pos immediate]
      obtain ⟨registers, wrote, _⟩ := except_bind_ok.mp ran
      obtain ⟨otherRegisters, otherWrote⟩ :=
        (write_isOk _ other.registers _ _ _).mp ⟨registers, wrote⟩
      exact ⟨_, except_bind_ok.mpr ⟨otherRegisters, otherWrote, rfl⟩⟩
    · rename_i register
      rw [if_neg register]
      obtain ⟨val, read, rest⟩ := except_bind_ok.mp ran
      obtain ⟨registers, wrote, _⟩ := except_bind_ok.mp rest
      obtain ⟨otherVal, otherRead⟩ :=
        (read_isOk _ other.registers _).mp ⟨val, read⟩
      obtain ⟨otherRegisters, otherWrote⟩ :=
        (write_isOk _ other.registers _ _ otherVal).mp ⟨registers, wrote⟩
      exact
        ⟨_, except_bind_ok.mpr
          ⟨otherVal, otherRead,
            except_bind_ok.mpr ⟨otherRegisters, otherWrote, rfl⟩⟩⟩
  · cases shape
    rintro thread other ⟨changed, ran⟩
    simp only [cmpThread, except_bind_ok] at ran ⊢
    obtain ⟨val1, read1, val2, read2, _⟩ := ran
    obtain ⟨other1, otherRead1⟩ :=
      (read_isOk _ other.registers _).mp ⟨val1, read1⟩
    obtain ⟨other2, otherRead2⟩ :=
      (read_isOk _ other.registers _).mp ⟨val2, read2⟩
    exact ⟨_, other1, otherRead1, other2, otherRead2, rfl⟩
  · cases shape

/-- A lane loop with a uniform body that throws has changed no thread. -/
theorem mapActive_error
    {mask : ActiveMask}
    {body : Thread → Except SimError Thread}
    (uniform : Uniform body)
    {lane : Nat}
    {threads : List Thread}
    (lanes : lane + threads.length ≤ 32)
    {error : SimError}
    (threw : (mapActive mask body lane threads).2 = .error error) :
    (mapActive mask body lane threads).1 = threads := by
  induction threads generalizing lane with
  | nil => rfl
  | cons thread rest inductionHypothesis =>
      rw [List.length_cons] at lanes
      have inRange : lane < 32 := by omega
      cases active : mask.getLsbD lane with
      | false =>
          simp only [mapActive, ActiveMask.test_of_lt inRange, active]
            at threw ⊢
          rw [inductionHypothesis (by omega) threw]
      | true =>
          cases changed : body thread with
          | error thrown =>
              simp only [mapActive, ActiveMask.test_of_lt inRange, active,
                changed]
          | ok updated =>
              -- The body succeeds for this thread, so for all of them.
              obtain ⟨after, ran⟩ :=
                @mapActive_succeeds mask body (lane + 1) rest (by omega)
                  (fun _ _ => uniform thread _ ⟨updated, changed⟩)
              simp only [mapActive, ActiveMask.test_of_lt inRange, active,
                changed, ran] at threw
              cases threw

/-- Writing loaded values that throws has written none of them. -/
theorem writeLanes_error
    {dst : Int}
    {values : List (Nat × Word)}
    {threads : List Thread}
    {error : SimError}
    (threw : (writeLanes dst values threads).2 = .error error) :
    (writeLanes dst values threads).1 = threads := by
  have writable
      {thread : Thread}
      {value : Word}
      {registers : RegisterFile 32}
      (wrote : thread.registers.write dst value = .ok registers)
      (rest : List (Nat × Word))
      (others : List Thread) :
      (writeLanes dst rest others).2 = .ok () := by
    induction rest generalizing others with
    | nil => rfl
    | cons entry rest inductionHypothesis =>
        obtain ⟨lane, word⟩ := entry
        unfold writeLanes
        split
        · exact inductionHypothesis others
        · rename_i other _
          obtain ⟨otherRegisters, otherWrote⟩ :=
            (write_isOk _ other.registers _ _ word).mp ⟨registers, wrote⟩
          rw [otherWrote]
          exact inductionHypothesis _
  induction values with
  | nil => rfl
  | cons entry rest inductionHypothesis =>
      obtain ⟨lane, value⟩ := entry
      unfold writeLanes at threw ⊢
      split at threw
      · exact inductionHypothesis threw
      · split at threw
        · rfl
        · rename_i registers wrote
          rw [writable wrote] at threw
          cases threw

/-! ## Faulting instructions -/

/-- The warp and both memories are as they were. -/
def Untouched (before after : Warp × MemorySystem) : Prop :=
  after.1 = before.1 ∧ contents after.2 = contents before.2

/-- Setting the pc and the shadow pcs does not throw. -/
theorem advanceTo_throws_not
    {state after : Warp × MemorySystem}
    {mask : ActiveMask}
    {pc : Nat}
    {error : SimError}
    (lanes : state.1.threads.length ≤ 32) :
    ¬ advanceTo mask pc state = .error error after := by
  obtain ⟨_, ran, _⟩ := advanceTo_succeeds lanes mask pc state.2
  intro threw
  rw [ran] at threw
  cases threw

/-- After an advance nothing throws. -/
theorem advance_throws_not
    {α : Type}
    {state after : Warp × MemorySystem}
    {mask : ActiveMask}
    {pc : Nat}
    {value : α}
    {error : SimError}
    (lanes : state.1.threads.length ≤ 32) :
    ¬ (do
        advanceTo mask pc
        pure value : ExecM α) state = .error error after := by
  intro threw
  rcases state_bind_error.mp threw with now | ⟨_, _, _, later⟩
  · exact advanceTo_throws_not lanes now
  · cases later

/-- An instruction on threads only that throws leaves everything. -/
theorem executeThreads_untouched
    {body : Thread → Except SimError Thread}
    (uniform : Uniform body)
    {state after : Warp × MemorySystem}
    {error : SimError}
    (lanes : state.1.threads.length ≤ 32)
    (threw : executeThreads state.1 body state = .error error after) :
    Untouched state after := by
  rcases state_bind_error.mp threw with now | ⟨_, middle, ran, later⟩
  · unfold forActiveThreads at now
    cases shape : mapActive state.1.activeMask body 0 state.1.threads with
    | mk threads outcome =>
        simp only [shape] at now
        cases outcome with
        | ok _ => cases now
        | error thrown =>
            cases now
            have same :=
              @mapActive_error state.1.activeMask body uniform 0
                state.1.threads (by rwa [Nat.zero_add]) error
                (by rw [shape])
            rw [shape] at same
            obtain rfl := same
            exact ⟨rfl, rfl⟩
  · obtain ⟨threads, update, rfl⟩ := forActiveThreads_ok ran
    exact
      (@advance_throws_not _
        ({ state.1 with threads := threads }, state.2) _ _ _ _ _
        (update.length.trans_le lanes) later).elim

/-- Lifting an outcome keeps everything. -/
theorem liftExcept_keeps
    {σ α γ : Type}
    {observe : σ → γ}
    (result : Except SimError α) :
    Keeps observe (liftExcept result : EStateM SimError σ α) := by
  intro before
  cases result with
  | ok value => rfl
  | error error => rfl

/-- Loading keeps the contents of both memories. -/
theorem warpLoad_keeps
    (addresses : List Nat) :
    Keeps contents (warpLoad addresses) := by
  have shared
      (accesses : List (Nat × Unit))
      (maxLatency : Nat) :
      Keeps contents
        (sharedAccesses (fun address _ => sharedLoad address) accesses
          maxLatency) := by
    induction accesses generalizing maxLatency with
    | nil => exact .pure _
    | cons access rest inductionHypothesis =>
        refine .bind ?_ fun loaded => .bind (inductionHypothesis _) fun _ => .pure _
        exact .bind .get fun _ => .bind (liftExcept_keeps _) fun _ => .pure _
  have global
      (accesses : List (Nat × Unit)) :
      Keeps contents
        (globalAccesses (fun address _ => globalLoad address) accesses) := by
    induction accesses with
    | nil => exact .pure _
    | cons access rest inductionHypothesis =>
        refine .bind ?_ fun loaded => .bind inductionHypothesis fun _ => .pure _
        exact .bind .get fun _ => liftExcept_keeps _
  unfold warpLoad warpAccess
  dsimp only
  split
  · exact .pure _
  · split
    · exact .throw _
    · split
      · exact .bind .get fun _ => .bind (shared _ _) fun _ => .pure _
      · exact
          .bind .get fun _ =>
            .bind (chargeTransactions_keeps readLatency_keeps _ _ _)
              fun _ => .bind (global _) fun _ => .pure _

/-- A lifted exception leaves the state. -/
theorem liftExcept_error
    {σ α : Type}
    {result : Except SimError α}
    {before after : σ}
    {error : SimError}
    (threw : liftExcept result before = .error error after) :
    after = before :=
  (liftExcept_keeps result : Keeps id _).of_error threw

/-- A memory operation that throws leaves the warp. -/
theorem onMemory_error
    {α : Type}
    {operation : MemoryM α}
    {before after : Warp × MemorySystem}
    {error : SimError}
    (threw : onMemory operation before = .error error after) :
    after.1 = before.1 ∧ operation before.2 = .error error after.2 := by
  unfold onMemory at threw
  cases shape : operation before.2 with
  | ok value memory =>
      simp only [shape] at threw
      cases threw
  | error thrown memory =>
      simp only [shape] at threw
      cases threw
      exact ⟨rfl, rfl⟩

/-- Writing back that throws leaves everything. -/
theorem writeBack_untouched
    {dst : Int}
    {values : List (Nat × Word)}
    {before after : Warp × MemorySystem}
    {error : SimError}
    (threw : writeBack dst values before = .error error after) :
    after = before := by
  unfold writeBack at threw
  cases shape : writeLanes dst values before.1.threads with
  | mk threads outcome =>
      simp only [shape] at threw
      cases outcome with
      | ok _ => cases threw
      | error thrown =>
          cases threw
          have same :=
            @writeLanes_error dst values before.1.threads error
              (by rw [shape])
          rw [shape] at same
          obtain rfl := same
          rfl

/-- Loading lanes that throws leaves everything. -/
theorem loadLanes_untouched
    {inst : Instruction}
    {lanes : List (Nat × Nat)}
    {before after : Warp × MemorySystem}
    {error : SimError}
    (threw : loadLanes inst lanes before = .error error after) :
    Untouched before after := by
  cases lanes with
  | nil => cases threw
  | cons first rest =>
      have keeps := warpLoad_keeps ((first :: rest).map Prod.snd)
      rcases state_bind_error.mp threw with
        now | ⟨loaded, middle, performed, later⟩
      · obtain ⟨sameWarp, failed⟩ := onMemory_error now
        exact ⟨sameWarp, keeps.of_error failed⟩
      · obtain ⟨sameWarp, performed⟩ := onMemory_ok performed
        rcases state_bind_error.mp later with now | ⟨_, _, _, last⟩
        · rw [writeBack_untouched now]
          exact ⟨sameWarp, keeps.of_ok performed⟩
        · cases last

/-- A load that throws leaves everything. -/
theorem executeLoad_untouched
    {inst : Instruction}
    {state after : Warp × MemorySystem}
    {error : SimError}
    (lanes : state.1.threads.length ≤ 32)
    (threw : executeLoad inst state.1 state = .error error after) :
    Untouched state after := by
  rcases state_bind_error.mp threw with now | ⟨accesses, middle, ran, rest⟩
  · rw [liftExcept_error now]
    exact ⟨rfl, rfl⟩
  · obtain ⟨_, rfl⟩ := liftExcept_ok ran
    rcases state_bind_error.mp rest with
      now | ⟨result, reached, loaded, later⟩
    · exact loadLanes_untouched now
    · have sameLength :=
        congrArg List.length (loadLanes_ok loaded).2.1
      rw [List.length_map, List.length_map] at sameLength
      exact (advance_throws_not (sameLength.trans_le lanes) later).elim

/--
A store or an atomic addition whose first access out of bounds comes after
others that change the memory.
-/
def PartialWrite
    (inst : Instruction)
    (warp : Warp)
    (memory : MemorySystem) : Prop :=
  ∃ combine lanes,
    combineOf inst = some combine ∧
      gatherActive warp.activeMask (storeOperand inst) 0 warp.threads =
        .ok lanes ∧
      PartialAccess combine memory (lanes.map Prod.snd)

/-- A writing instruction that throws did part of its writes or nothing. -/
theorem executeStore_error
    {inst : Instruction}
    {combine : Word → Word → Word}
    (isWrite : combineOf inst = some combine)
    {state after : Warp × MemorySystem}
    {error : SimError}
    (lanes : state.1.threads.length ≤ 32)
    (threw :
      executeStore (operationOf inst) inst state.1 state =
        .error error after) :
    Untouched state after ∨ PartialWrite inst state.1 state.2 := by
  rcases state_bind_error.mp threw with now | ⟨accesses, middle, ran, rest⟩
  · rw [liftExcept_error now]
    exact Or.inl ⟨rfl, rfl⟩
  · obtain ⟨gathered, rfl⟩ := liftExcept_ok ran
    rcases state_bind_error.mp rest with
      now | ⟨result, reached, stored, later⟩
    · cases accessList : accesses.map Prod.snd with
      | nil =>
          rw [accessList] at now
          cases now
      | cons first others =>
          rw [accessList] at now
          rcases state_bind_error.mp now with
            failed | ⟨_, _, _, last⟩
          · obtain ⟨sameWarp, failed⟩ := onMemory_error failed
            rw [← accessList] at failed
            rcases (operationOf_error isWrite).1 _ _ failed with
              same | partialAccess
            · exact Or.inl ⟨sameWarp, same⟩
            · exact
                Or.inr ⟨combine, accesses, isWrite, gathered, partialAccess⟩
          · cases last
    · have sameWarp := (storeLanes_ok stored).2
      rw [← sameWarp] at lanes
      exact (advance_throws_not lanes later).elim

/-- A partial write throws and leaves the memories changed. -/
theorem executeStore_partial
    {inst : Instruction}
    {state : Warp × MemorySystem}
    (partialWrite : PartialWrite inst state.1 state.2) :
    ∃ error after,
      executeStore (operationOf inst) inst state.1 state =
          .error error after ∧
        contents after.2 ≠ contents state.2 := by
  obtain ⟨combine, accesses, isWrite, gathered, partialAccess⟩ := partialWrite
  obtain ⟨error, after, failed, changed⟩ :=
    (operationOf_error isWrite).2 partialAccess
  refine ⟨error, (state.1, after), ?_, changed⟩
  refine state_bind_error.mpr (Or.inr ⟨accesses, state, ?_, ?_⟩)
  · rw [gathered]
    rfl
  · refine state_bind_error.mpr (Or.inl ?_)
    cases accessList : accesses.map Prod.snd with
    | nil => exact (partialAccess.ne_nil accessList).elim
    | cons first others =>
        refine state_bind_error.mpr (Or.inl ?_)
        rw [← accessList]
        unfold onMemory
        rw [failed]

/-- A branch does not throw. -/
theorem executeBranch_untouched
    {inst : Instruction}
    {state after : Warp × MemorySystem}
    {error : SimError}
    (lanes : state.1.threads.length ≤ 32)
    (threw : executeBranch inst state.1 state = .error error after) :
    Untouched state after := by
  rcases state_bind_error.mp threw with now | ⟨taken, middle, ran, rest⟩
  · rw [liftExcept_error now]
    exact ⟨rfl, rfl⟩
  · obtain ⟨_, rfl⟩ := liftExcept_ok ran
    split at rest
    · exact (advance_throws_not lanes rest).elim
    · split at rest
      · exact (advance_throws_not lanes rest).elim
      · rcases state_bind_error.mp rest with now | ⟨_, pushed, modified, later⟩
        · cases now
        · obtain rfl := state_modify_ok.mp modified
          refine (advance_throws_not ?_ later).elim
          exact lanes

/-- Nor does opening a region. -/
theorem executeSsy_untouched
    {inst : Instruction}
    {state after : Warp × MemorySystem}
    {error : SimError}
    (lanes : state.1.threads.length ≤ 32)
    (threw : executeSsy inst state.1 state = .error error after) :
    Untouched state after := by
  rcases state_bind_error.mp threw with now | ⟨_, pushed, modified, later⟩
  · cases now
  · obtain rfl := state_modify_ok.mp modified
    refine (advance_throws_not ?_ later).elim
    exact lanes

/-- Closing a region throws before it changes anything. -/
theorem executeSync_untouched
    {state after : Warp × MemorySystem}
    {error : SimError}
    (lanes : state.1.threads.length ≤ 32)
    (threw : executeSync state.1 state = .error error after) :
    Untouched state after := by
  unfold executeSync Warp.popSimtStack at threw
  cases stack : state.1.simtStack with
  | nil =>
      rw [stack] at threw
      cases threw
      exact ⟨rfl, rfl⟩
  | cons entry below =>
      rw [stack] at threw
      rcases state_bind_error.mp threw with
        now | ⟨_, resumed, modified, later⟩
      · cases now
      · obtain rfl := state_modify_ok.mp modified
        refine (advance_throws_not ?_ later).elim
        exact lanes

/-- So does a barrier. -/
theorem executeBarrier_untouched
    {state after : Warp × MemorySystem}
    {error : SimError}
    (lanes : state.1.threads.length ≤ 32)
    (threw : executeBarrier state.1 state = .error error after) :
    Untouched state after := by
  unfold executeBarrier at threw
  split at threw
  · cases threw
    exact ⟨rfl, rfl⟩
  · exact (advance_throws_not lanes threw).elim

/-- What an instruction that throws leaves. -/
theorem execute_error
    {inst : Instruction}
    {state after : Warp × MemorySystem}
    {error : SimError}
    (lanes : state.1.threads.length ≤ 32)
    (threw : execute inst state = .error error after) :
    Untouched state after ∨ PartialWrite inst state.1 state.2 := by
  cases opcode : inst.opcode with
  | add | sub | mul | mov | cmp =>
      obtain ⟨body, shape⟩ :
          ∃ body, threadBody? inst = some body := by
        simp [threadBody?, opcode]
      rw [execute_of_threadBody? shape] at threw
      exact
        Or.inl
          (executeThreads_untouched (threadBody?_uniform shape) lanes threw)
  | load =>
      simp only [execute_eq, executeOpcode, opcode] at threw
      exact Or.inl (executeLoad_untouched lanes threw)
  | store =>
      simp only [execute_eq, executeOpcode, opcode] at threw
      have isWrite :
          combineOf inst = some (fun _ value => value) := if_pos opcode
      have isOperation : operationOf inst = warpStore := if_pos opcode
      rw [← isOperation] at threw
      exact executeStore_error isWrite lanes threw
  | atomicAdd =>
      simp only [execute_eq, executeOpcode, opcode] at threw
      have notStore : inst.opcode ≠ .store := by simp [opcode]
      have isWrite : combineOf inst = some (· + ·) := by
        rw [combineOf, if_neg notStore, if_pos opcode]
      have isOperation : operationOf inst = warpAtomicAdd := if_neg notStore
      rw [← isOperation] at threw
      exact executeStore_error isWrite lanes threw
  | branch =>
      simp only [execute_eq, executeOpcode, opcode] at threw
      exact Or.inl (executeBranch_untouched lanes threw)
  | ssy =>
      simp only [execute_eq, executeOpcode, opcode] at threw
      exact Or.inl (executeSsy_untouched lanes threw)
  | sync =>
      simp only [execute_eq, executeOpcode, opcode] at threw
      exact Or.inl (executeSync_untouched lanes threw)
  | barrier =>
      simp only [execute_eq, executeOpcode, opcode] at threw
      exact Or.inl (executeBarrier_untouched lanes threw)
  | unknown =>
      simp only [execute_eq, executeOpcode, opcode] at threw
      cases threw
      exact Or.inl ⟨rfl, rfl⟩

/-- A partial write throws in the executor and changes the memories. -/
theorem execute_partialOutcome
    {inst : Instruction}
    {state : Warp × MemorySystem}
    (partialWrite : PartialWrite inst state.1 state.2) :
    ∃ error after,
      execute inst state = .error error after ∧
        contents after.2 ≠ contents state.2 := by
  obtain ⟨error, after, threw, changed⟩ := executeStore_partial partialWrite
  obtain ⟨combine, _, isWrite, _⟩ := partialWrite
  refine ⟨error, after, ?_, changed⟩
  rw [execute_eq, ← threw]
  unfold combineOf at isWrite
  unfold operationOf executeOpcode
  split at isWrite
  · rename_i isStore
    rw [if_pos isStore, isStore]
  · rename_i notStore
    split at isWrite
    · rename_i isAtomic
      rw [if_neg notStore, isAtomic]
    · cases isWrite

/--
An instruction has no effect when it throws, unless it is a store or an atomic
addition that finds an access out of bounds after writing others.
-/
theorem fault_untouched_iff
    (inst : Instruction)
    {warp : Warp}
    (lanes : warp.threads.length ≤ 32)
    (memory : MemorySystem) :
    (∀ error after,
        execute inst (warp, memory) = .error error after →
        Untouched (warp, memory) after) ↔
      ¬ PartialWrite inst warp memory := by
  constructor
  · intro untouched partialWrite
    obtain ⟨error, after, threw, changed⟩ :=
      @execute_partialOutcome inst (warp, memory) partialWrite
    exact changed (untouched error after threw).2
  · intro notPartial error after threw
    exact
      (@execute_error inst (warp, memory) after error lanes threw).resolve_right
        notPartial

/-- Two lanes that store the value seven, the first one far away. -/
def farFirst : Warp :=
  Warp.ofThreads 0
    [((Thread.new 0 0 0 0 0).seed 2 7).seed 1 9,
      (Thread.new 1 0 1 0 1).seed 2 7]

/-- Nothing is written before the first lane faults. -/
theorem farFirst_notPartial :
    ¬ PartialWrite ⟨.store, -1, 2, 1, 0x10000000⟩ farFirst
        (MemorySystem.minimal 4) := by
  rintro ⟨combine, lanes, _, gathers, partialAccess⟩
  have gathered :
      gatherActive farFirst.activeMask
          (storeOperand ⟨.store, -1, 2, 1, 0x10000000⟩) 0
          farFirst.threads =
        .ok [(0, (0x10000009, 7)), (1, (0x10000000, 7))] := by
    decide +kernel
  rw [gathered] at gathers
  cases gathers
  cases partialAccess with
  | shared space fault changes =>
      rename_i before
      obtain ⟨access, later, order, inside, outside⟩ := fault
      cases before with
      | nil => exact changes rfl
      | cons first others =>
          -- the first access is already out of bounds
          have isFirst : first = (9, 7) :=
            (List.cons.inj order).1.symm
          have bound := inside first List.mem_cons_self
          rw [isFirst] at bound
          revert bound
          decide
  | global space fault charged changes =>
      have isShared := space _ List.mem_cons_self
      revert isShared
      decide

/-- A store whose first lane is far away throws and writes nothing. -/
theorem fault_untouched_far_first :
    ∃ error after,
      execute ⟨.store, -1, 2, 1, 0x10000000⟩
            (farFirst, MemorySystem.minimal 4) =
          .error error after ∧
        Untouched (farFirst, MemorySystem.minimal 4) after := by
  have untouched :=
    (@fault_untouched_iff ⟨.store, -1, 2, 1, 0x10000000⟩ farFirst
      (by decide) (MemorySystem.minimal 4)).mpr farFirst_notPartial
  cases ran :
      execute ⟨.store, -1, 2, 1, 0x10000000⟩
        (farFirst, MemorySystem.minimal 4) with
  | error error after => exact ⟨error, after, rfl, untouched error after ran⟩
  | ok result after =>
      have throws :
          (match execute ⟨.store, -1, 2, 1, 0x10000000⟩
              (farFirst, MemorySystem.minimal 4) with
            | .ok _ _ => true
            | .error _ _ => false) = false := by
        decide +kernel
      rw [ran] at throws
      cases throws

/-- Two lanes that store the value seven, the second one far away. -/
def farStore : Warp :=
  Warp.ofThreads 0
    [(Thread.new 0 0 0 0 0).seed 2 7,
      ((Thread.new 1 0 1 0 1).seed 2 7).seed 1 9]

/-- The first lane's store is done when the second one faults. -/
theorem store_faults_late :
    ∃ error after,
      farStore.threads.length ≤ 32 ∧
        execute ⟨.store, -1, 2, 1, 0x10000000⟩
              (farStore, MemorySystem.minimal 4) =
            .error error after ∧
          ¬ Untouched (farStore, MemorySystem.minimal 4) after := by
  have partialWrite :
      PartialWrite ⟨.store, -1, 2, 1, 0x10000000⟩ farStore
        (MemorySystem.minimal 4) := by
    refine
      ⟨fun _ value => value,
        [(0, (0x10000000, 7)), (1, (0x10000009, 7))], rfl,
        by decide +kernel, ?_⟩
    refine
      @PartialAccess.shared _ _ _ [(0, 7)] (by decide +kernel)
        ⟨(9, 7), [], by decide +kernel, by decide, by decide⟩ ?_
    intro same
    have cell := congrFun same 0
    revert cell
    decide
  obtain ⟨error, after, threw, changed⟩ :=
    @execute_partialOutcome _ (farStore, MemorySystem.minimal 4) partialWrite
  exact
    ⟨error, after, by decide, threw, fun untouched => changed untouched.2⟩

end Atomicity

end SimSm
