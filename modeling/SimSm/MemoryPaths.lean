import Mathlib.Data.BitVec
import SimSm.Library.Interleaving
import SimSm.PathMachine

namespace SimSm

/-!
# The path machine with memory

The path machine again, now with the data of memory as one map from addresses
to words.  Loads consult it, stores and atomic additions are accesses to it.
Caches and latencies are gone: what an instruction does to the lanes and to the
data does not depend on them.
-/

open Outcome Interleaving

/-- The data that addresses name, shared memory above global memory. -/
def dataView
    (sharedMemory : SharedMemory)
    (globalMemory : GlobalMemory)
    (address : Nat) :
    Word :=
  if MemorySystem.isShared address then
    sharedMemory.data (address - MemorySystem.sharedMemBase)
  else
    globalMemory.data address

/-- The data of a memory system. -/
def MemorySystem.view (memory : MemorySystem) : Nat → Word :=
  dataView memory.sharedMemory memory.globalMemory

/-- The address operand of a lane: register `src`, if any, plus immediate. -/
def LaneState.address
    (src : Int)
    (inst : Instruction)
    (lane : LaneState) :
    Nat :=
  if src = -1 then
    sizeT inst.immediate
  else
    sizeT ((lane.read src).toInt + inst.immediate)

/-- The active lanes with their numbers, from lane number `lane` on. -/
def activeLanes
    (mask : ActiveMask) :
    Nat → List LaneState → List (Nat × LaneState)
  | _, [] => []
  | lane, state :: rest =>
      if mask.getLsbD lane then
        (lane, state) :: activeLanes mask (lane + 1) rest
      else
        activeLanes mask (lane + 1) rest

/-- The scalar meaning of an instruction with the data of memory at hand. -/
def LaneState.executeWith
    (inst : Instruction)
    (view : Nat → Word)
    (lane : LaneState) :
    LaneState :=
  if inst.opcode = .load then
    lane.write inst.dst (view (lane.address inst.src1 inst))
  else
    lane.execute inst

/-- The access of one lane, if the instruction is one to memory. -/
def LaneState.access?
    (inst : Instruction)
    (lane : LaneState) :
    Option (Access Nat Word) :=
  match inst.opcode with
  | .load => some (.load (lane.address inst.src1 inst))
  | .store =>
      some (.store (lane.address inst.src2 inst) (lane.read inst.src1))
  | .atomicAdd =>
      some (.add (lane.address inst.src2 inst) (lane.read inst.src1))
  | _ => none

namespace PathState

/-- The memory accesses of an instruction, in the order of the active lanes. -/
def accesses (inst : Instruction) (state : PathState) : List (Access Nat Word) :=
  (activeLanes state.current.mask 0 state.lanes).filterMap fun lane =>
    lane.2.access? inst

/-- Execute one instruction with the data of memory at hand. -/
def executeWith
    (inst : Instruction)
    (view : Nat → Word)
    (state : PathState) :
    Option PathState :=
  (state.execute inst).map fun next =>
    { next with
      lanes :=
        onMask state.current.mask (LaneState.executeWith inst view)
          state.lanes }

end PathState

/-! ## Operations and the data -/

/-- What accesses do to the data of a memory system, and nothing else. -/
structure MemoryEffect
    (accesses : List (Access Nat Word))
    (before after : MemorySystem) :
    Prop where
  view : after.view = applyAll accesses before.view
  size : after.globalMemory.size = before.globalMemory.size
  hidden :
    ∀ address,
      MemorySystem.isShared address = true →
      after.globalMemory.data address = before.globalMemory.data address

namespace MemoryEffect

theorem of_sameData
    {before after : MemorySystem}
    (shared : after.sharedMemory = before.sharedMemory)
    (global : after.globalMemory = before.globalMemory) :
    MemoryEffect [] before after := by
  refine ⟨?_, by rw [global], fun _ _ => by rw [global]⟩
  rw [MemorySystem.view, shared, global]
  rfl

theorem trans
    {first second third : MemorySystem}
    {earlier later : List (Access Nat Word)}
    (before : MemoryEffect earlier first second)
    (after : MemoryEffect later second third) :
    MemoryEffect (earlier ++ later) first third where
  view := by rw [after.view, before.view, applyAll_append]
  size := after.size.trans before.size
  hidden address isShared :=
    (after.hidden address isShared).trans (before.hidden address isShared)

end MemoryEffect

namespace MemorySystem

/-- An operation that leaves the data alone. -/
def KeepsData (operation : MemoryM α) : Prop :=
  ∀ (before after : MemorySystem) (value : α),
    operation before = .ok value after →
    after.sharedMemory = before.sharedMemory ∧
      after.globalMemory = before.globalMemory

/-- The two memories, without the caches. -/
def contents (memory : MemorySystem) : SharedMemory × GlobalMemory :=
  (memory.sharedMemory, memory.globalMemory)

/-- What keeps the contents in any case does so when it returns. -/
theorem KeepsData.of_keeps
    {operation : MemoryM α}
    (keeps : Keeps contents operation) :
    KeepsData operation := by
  intro before after value ran
  exact Prod.mk.inj (keeps.of_ok ran)

theorem onL1_keeps (operation : CacheM α) :
    Keeps contents (onL1 operation) := by
  intro before
  unfold onL1
  cases operation before.l1Cache with
  | ok value cache => rfl
  | error error cache => rfl

theorem onL2_keeps (operation : CacheM α) :
    Keeps contents (onL2 operation) := by
  intro before
  unfold onL2
  cases operation before.l2Cache with
  | ok value cache => rfl
  | error error cache => rfl

theorem readLatency_keeps (address : Nat) :
    Keeps contents (readLatency address) := by
  unfold readLatency
  refine .bind .get fun memory => .bind (onL1_keeps _) fun l1Result => ?_
  split
  · exact .pure _
  · refine .bind (onL2_keeps _) fun l2Result => ?_
    dsimp only
    split <;> split <;> exact .pure _

theorem writeLatency_keeps (address : Nat) :
    Keeps contents (writeLatency address) := by
  unfold writeLatency
  refine .bind .get fun memory => .bind (onL1_keeps _) fun l1Result => ?_
  have charge (latency : Nat) :
      Keeps contents
        (if l1Result.dirtyEviction = true then
          pure (latency + memory.config.writebackLatency, 1)
        else
          pure (latency, 0) : MemoryM (Nat × Nat)) := by
    split <;> exact .pure _
  dsimp only
  split
  · exact .bind (.pure _) charge
  · refine .bind (onL2_keeps _) fun l2Result => ?_
    split <;> exact .bind (.pure _) charge

theorem chargeTransactions_keeps
    {latencyOf : Nat → MemoryM (Nat × Nat)}
    (keeps : ∀ address, Keeps contents (latencyOf address))
    (lines : List Nat)
    (maxLatency dirtyEvictions : Nat) :
    Keeps contents
      (chargeTransactions latencyOf lines maxLatency dirtyEvictions) := by
  induction lines generalizing maxLatency dirtyEvictions with
  | nil => exact .pure _
  | cons line rest inductionHypothesis =>
      exact .bind (keeps line) fun _ => inductionHypothesis _ _

/-! ## Single accesses -/

/-- What a load of one global cell returns. -/
theorem globalLoad_ok
    {address : Nat}
    {before after : MemorySystem}
    {value : Word}
    (ran : globalLoad address before = .ok value after) :
    value = before.globalMemory.data address ∧ after = before := by
  obtain ⟨memory, middle, got, lifted⟩ := state_bind_ok.mp ran
  obtain ⟨rfl, rfl⟩ := state_get_ok.mp got
  obtain ⟨loaded, rfl⟩ := InstructionExecutor.liftExcept_ok lifted
  unfold GlobalMemory.load at loaded
  split at loaded
  · cases loaded
    exact ⟨rfl, rfl⟩
  · cases loaded

/-- What a load of one shared cell returns. -/
theorem sharedLoad_ok
    {address : Nat}
    {before after : MemorySystem}
    {loaded : Word × Nat}
    (ran : sharedLoad address before = .ok loaded after) :
    loaded.1 = before.sharedMemory.data address ∧ after = before := by
  obtain ⟨memory, middle, got, later⟩ := state_bind_ok.mp ran
  obtain ⟨rfl, rfl⟩ := state_get_ok.mp got
  obtain ⟨value, reached, lifted, returned⟩ := state_bind_ok.mp later
  obtain ⟨found, rfl⟩ := InstructionExecutor.liftExcept_ok lifted
  obtain ⟨rfl, rfl⟩ := state_pure_ok.mp returned
  unfold SharedMemory.load at found
  split at found
  · cases found
    exact ⟨rfl, rfl⟩
  · cases found

/-- A store to a global cell updates the view. -/
theorem globalStore_effect
    {address : Nat}
    {value : Word}
    {before after : MemorySystem}
    {result : Unit}
    (isGlobal : isShared address = false)
    (ran : globalStore address value before = .ok result after) :
    MemoryEffect [.store address value] before after := by
  obtain ⟨memory, middle, got, later⟩ := state_bind_ok.mp ran
  obtain ⟨rfl, rfl⟩ := state_get_ok.mp got
  obtain ⟨stored, reached, lifted, later⟩ := state_bind_ok.mp later
  obtain ⟨found, rfl⟩ := InstructionExecutor.liftExcept_ok lifted
  have shape := state_set_ok.mp later
  unfold GlobalMemory.store at found
  split at found
  · cases found
    subst shape
    refine ⟨?_, rfl, fun other otherShared => ?_⟩
    · funext other
      change
        dataView _ _ other = Function.update (view _) address value other
      by_cases same : other = address
      · subst same
        simp [dataView, isGlobal]
      · rw [Function.update_of_ne same]
        simp only [dataView, view, Function.update_of_ne same]
    · refine Function.update_of_ne ?_ _ _
      rintro rfl
      rw [isGlobal] at otherShared
      cases otherShared
  · cases found

/-- A store to a shared cell updates the view. -/
theorem sharedStore_effect
    {address : Nat}
    {value : Word}
    {before after : MemorySystem}
    {latency : Nat}
    (shared : isShared address = true)
    (ran :
      sharedStore (address - sharedMemBase) value before =
        .ok latency after) :
    MemoryEffect [.store address value] before after := by
  obtain ⟨memory, middle, got, later⟩ := state_bind_ok.mp ran
  obtain ⟨rfl, rfl⟩ := state_get_ok.mp got
  obtain ⟨stored, reached, lifted, later⟩ := state_bind_ok.mp later
  obtain ⟨found, rfl⟩ := InstructionExecutor.liftExcept_ok lifted
  obtain ⟨_, written, wrote, returned⟩ := state_bind_ok.mp later
  obtain ⟨_, rfl⟩ := state_pure_ok.mp returned
  have shape := state_set_ok.mp wrote
  unfold SharedMemory.store at found
  split at found
  · cases found
    subst shape
    refine ⟨?_, rfl, fun _ _ => rfl⟩
    funext other
    change
      dataView _ _ other = Function.update (view _) address value other
    by_cases same : other = address
    · subst same
      simp [dataView, shared]
    · rw [Function.update_of_ne same]
      simp only [dataView, view]
      split
      · rename_i otherShared
        refine Function.update_of_ne (fun sameOffset => same ?_) _ _
        simp only [isShared, decide_eq_true_eq] at shared otherShared
        omega
      · rfl
  · cases found

/-- A load of a cell has no effect on the data. -/
theorem load_effect
    (address : Nat)
    (memory : MemorySystem) :
    MemoryEffect [.load address] memory memory :=
  ⟨rfl, rfl, fun _ _ => rfl⟩

/-- An atomic addition to a global cell updates the view. -/
theorem globalAdd_effect
    {address : Nat}
    {value : Word}
    {before after : MemorySystem}
    {result : Unit}
    (isGlobal : isShared address = false)
    (ran :
      (do
        let currentVal ← globalLoad address
        globalStore address (currentVal + value) : MemoryM Unit) before =
        .ok result after) :
    MemoryEffect [.add address value] before after := by
  obtain ⟨current, middle, loaded, stored⟩ := state_bind_ok.mp ran
  obtain ⟨rfl, rfl⟩ := globalLoad_ok loaded
  have effect := globalStore_effect isGlobal stored
  refine ⟨?_, effect.size, effect.hidden⟩
  rw [effect.view]
  have current :
      middle.view address = middle.globalMemory.data address := by
    simp [view, dataView, isGlobal]
  change
    Function.update middle.view address _ =
      Function.update middle.view address _
  rw [current]

/-- An atomic addition to a shared cell updates the view. -/
theorem sharedAdd_effect
    {address : Nat}
    {value : Word}
    {before after : MemorySystem}
    {result : Unit × Nat}
    (shared : isShared address = true)
    (ran :
      (do
        let memory ← get
        let currentVal ←
          liftExcept (memory.sharedMemory.load (address - sharedMemBase))
        let latency ←
          sharedStore (address - sharedMemBase) (currentVal + value)
        pure ((), latency) : MemoryM (Unit × Nat)) before =
        .ok result after) :
    MemoryEffect [.add address value] before after := by
  obtain ⟨memory, middle, got, loads⟩ := state_bind_ok.mp ran
  obtain ⟨rfl, rfl⟩ := state_get_ok.mp got
  obtain ⟨current, reached, lifted, stores⟩ := state_bind_ok.mp loads
  obtain ⟨found, rfl⟩ := InstructionExecutor.liftExcept_ok lifted
  obtain ⟨latency, written, stored, returned⟩ := state_bind_ok.mp stores
  obtain ⟨_, rfl⟩ := state_pure_ok.mp returned
  have effect := sharedStore_effect shared stored
  refine ⟨?_, effect.size, effect.hidden⟩
  rw [effect.view]
  unfold SharedMemory.load at found
  split at found
  · cases found
    change
      Function.update (view _) address _ = Function.update (view _) address _
    simp [view, dataView, shared]
  · cases found

/-! ## Warp accesses -/

section WarpAccess

variable {α β : Type}
variable {effect : Nat × β → Access Nat Word}

/-- An access that has one effect, at the addresses of one space. -/
def Performs
    (inSpace : Bool)
    (access : Nat → β → MemoryM α)
    (effect : Nat × β → Access Nat Word) :
    Prop :=
  ∀ (address : Nat) (argument : β) (before after : MemorySystem)
      (result : α),
    isShared address = inSpace →
    access address argument before = .ok result after →
    MemoryEffect [effect (address, argument)] before after

theorem globalAccesses_effect
    {access : Nat → β → MemoryM α}
    (performs : Performs false access effect)
    {accesses : List (Nat × β)}
    (allGlobal : ∀ entry ∈ accesses, isShared entry.1 = false)
    {before after : MemorySystem}
    {results : List α}
    (ran : globalAccesses access accesses before = .ok results after) :
    MemoryEffect (accesses.map effect) before after := by
  induction accesses generalizing before results with
  | nil =>
      obtain ⟨_, rfl⟩ := state_pure_ok.mp ran
      exact .of_sameData rfl rfl
  | cons entry rest inductionHypothesis =>
      obtain ⟨value, middle, now, later⟩ := state_bind_ok.mp ran
      obtain ⟨values, final, others, returned⟩ := state_bind_ok.mp later
      obtain ⟨_, rfl⟩ := state_pure_ok.mp returned
      have first :=
        performs entry.1 entry.2 before middle value
          (allGlobal entry List.mem_cons_self) now
      exact
        first.trans
          (inductionHypothesis
            (fun other member =>
              allGlobal other (List.mem_cons_of_mem entry member))
            others)

theorem sharedAccesses_effect
    {access : Nat → β → MemoryM (α × Nat)}
    (performs :
      Performs true
        (fun address argument => access (address - sharedMemBase) argument)
        effect)
    {accesses : List (Nat × β)}
    (allShared : ∀ entry ∈ accesses, isShared entry.1 = true)
    {maxLatency : Nat}
    {before after : MemorySystem}
    {results : List α × Nat}
    (ran :
      sharedAccesses access accesses maxLatency before =
        .ok results after) :
    MemoryEffect (accesses.map effect) before after := by
  induction accesses generalizing before results maxLatency with
  | nil =>
      obtain ⟨_, rfl⟩ := state_pure_ok.mp ran
      exact .of_sameData rfl rfl
  | cons entry rest inductionHypothesis =>
      obtain ⟨value, middle, now, later⟩ := state_bind_ok.mp ran
      obtain ⟨values, final, others, returned⟩ := state_bind_ok.mp later
      obtain ⟨_, rfl⟩ := state_pure_ok.mp returned
      have first :=
        performs entry.1 entry.2 before middle value
          (allShared entry List.mem_cons_self) now
      exact
        first.trans
          (inductionHypothesis
            (fun other member =>
              allShared other (List.mem_cons_of_mem entry member))
            others)

/-- Loads of global cells return the view. -/
theorem globalAccesses_load
    {accesses : List (Nat × β)}
    (allGlobal : ∀ entry ∈ accesses, isShared entry.1 = false)
    {before after : MemorySystem}
    {results : List Word}
    (ran :
      globalAccesses (fun address _ => globalLoad address) accesses before =
        .ok results after) :
    results = accesses.map (fun entry => before.view entry.1) ∧
      after = before := by
  induction accesses generalizing before results with
  | nil =>
      obtain ⟨rfl, rfl⟩ := state_pure_ok.mp ran
      exact ⟨rfl, rfl⟩
  | cons entry rest inductionHypothesis =>
      obtain ⟨value, middle, now, later⟩ := state_bind_ok.mp ran
      obtain ⟨values, final, others, returned⟩ := state_bind_ok.mp later
      obtain ⟨rfl, rfl⟩ := state_pure_ok.mp returned
      obtain ⟨rfl, rfl⟩ := globalLoad_ok now
      obtain ⟨rfl, same⟩ :=
        inductionHypothesis
          (fun other member =>
            allGlobal other (List.mem_cons_of_mem entry member))
          others
      refine ⟨?_, same⟩
      simp [view, dataView, allGlobal entry List.mem_cons_self]

/-- Loads of shared cells return the view. -/
theorem sharedAccesses_load
    {accesses : List (Nat × β)}
    (allShared : ∀ entry ∈ accesses, isShared entry.1 = true)
    {maxLatency : Nat}
    {before after : MemorySystem}
    {results : List Word × Nat}
    (ran :
      sharedAccesses (fun address _ => sharedLoad address) accesses
          maxLatency before =
        .ok results after) :
    results.1 = accesses.map (fun entry => before.view entry.1) ∧
      after = before := by
  induction accesses generalizing before results maxLatency with
  | nil =>
      obtain ⟨rfl, rfl⟩ := state_pure_ok.mp ran
      exact ⟨rfl, rfl⟩
  | cons entry rest inductionHypothesis =>
      obtain ⟨value, middle, now, later⟩ := state_bind_ok.mp ran
      obtain ⟨values, final, others, returned⟩ := state_bind_ok.mp later
      obtain ⟨rfl, rfl⟩ := state_pure_ok.mp returned
      obtain ⟨loaded, rfl⟩ := sharedLoad_ok now
      obtain ⟨othersLoaded, same⟩ :=
        inductionHypothesis
          (fun other member =>
            allShared other (List.mem_cons_of_mem entry member))
          others
      refine ⟨?_, same⟩
      rw [loaded, othersLoaded]
      simp [view, dataView, allShared entry List.mem_cons_self]

/-- The addresses of an access that was not rejected are in one space. -/
theorem one_space
    {accesses : List (Nat × β)}
    {first : Nat}
    (notMixed :
      ¬ ((accesses.map Prod.fst).any fun address =>
        isShared address != isShared first) = true) :
    ∀ entry ∈ accesses, isShared entry.1 = isShared first := by
  intro entry member
  by_contra other
  apply notMixed
  rw [List.any_eq_true]
  exact
    ⟨entry.1, List.mem_map_of_mem member, by simpa using other⟩

/-- Where a warp access that throws nothing ends. -/
theorem warpAccess_ok
    {latencyOf : Nat → MemoryM (Nat × Nat)}
    {onShared : Nat → β → MemoryM (α × Nat)}
    {onGlobal : Nat → β → MemoryM α}
    {accesses : List (Nat × β)}
    {before after : MemorySystem}
    {result : List α × WarpMemoryResult}
    (ran :
      warpAccess latencyOf onShared onGlobal accesses before =
        .ok result after) :
    (accesses = [] ∧ result.1 = [] ∧ after = before) ∨
      ((∀ entry ∈ accesses, isShared entry.1 = true) ∧
        ∃ latency,
          sharedAccesses onShared accesses 0 before =
            .ok (result.1, latency) after) ∨
      (∀ entry ∈ accesses, isShared entry.1 = false) ∧
        ∃ lines charged middle,
          chargeTransactions latencyOf lines 1 0 before =
              .ok charged middle ∧
            globalAccesses onGlobal accesses middle =
              .ok result.1 after := by
  unfold warpAccess at ran
  cases addresses : accesses.map Prod.fst with
  | nil =>
      simp only [addresses] at ran
      obtain ⟨rfl, rfl⟩ := state_pure_ok.mp ran
      exact Or.inl ⟨List.map_eq_nil_iff.mp addresses, rfl, rfl⟩
  | cons first rest =>
      simp only [addresses] at ran
      rw [← addresses] at ran
      split at ran
      · exact (state_throw_not_ok ran).elim
      · rename_i notMixed
        have space := one_space notMixed
        split at ran
        · rename_i shared
          obtain ⟨memory, middle, got, performs⟩ := state_bind_ok.mp ran
          obtain ⟨rfl, rfl⟩ := state_get_ok.mp got
          obtain ⟨values, final, performed, returned⟩ :=
            state_bind_ok.mp performs
          obtain ⟨rfl, rfl⟩ := state_pure_ok.mp returned
          exact
            Or.inr
              (Or.inl
                ⟨fun entry member => (space entry member).trans shared,
                  values.2, performed⟩)
        · rename_i isGlobal
          obtain ⟨memory, middle, got, charging⟩ := state_bind_ok.mp ran
          obtain ⟨rfl, rfl⟩ := state_get_ok.mp got
          obtain ⟨latency, charged, charges, performs⟩ :=
            state_bind_ok.mp charging
          obtain ⟨values, final, performed, returned⟩ :=
            state_bind_ok.mp performs
          obtain ⟨rfl, rfl⟩ := state_pure_ok.mp returned
          exact
            Or.inr
              (Or.inr
                ⟨fun entry member =>
                    (space entry member).trans
                      (Bool.eq_false_of_not_eq_true isGlobal),
                  _, latency, charged, charges, performed⟩)

/-- A warp access performs its accesses in lane order. -/
theorem warpAccess_effect
    {latencyOf : Nat → MemoryM (Nat × Nat)}
    {onShared : Nat → β → MemoryM (α × Nat)}
    {onGlobal : Nat → β → MemoryM α}
    (keeps : ∀ address, Keeps contents (latencyOf address))
    (performsShared :
      Performs true
        (fun address argument => onShared (address - sharedMemBase) argument)
        effect)
    (performsGlobal : Performs false onGlobal effect)
    {accesses : List (Nat × β)}
    {before after : MemorySystem}
    {result : List α × WarpMemoryResult}
    (ran :
      warpAccess latencyOf onShared onGlobal accesses before =
        .ok result after) :
    MemoryEffect (accesses.map effect) before after := by
  rcases warpAccess_ok ran with
    ⟨rfl, _, rfl⟩ | ⟨shared, latency, performed⟩ |
      ⟨isGlobal, lines, charged, middle, charges, performed⟩
  · exact .of_sameData rfl rfl
  · exact sharedAccesses_effect performsShared shared performed
  · obtain ⟨sameShared, sameGlobal⟩ :=
      KeepsData.of_keeps (chargeTransactions_keeps keeps _ _ _) _ _ _ charges
    have charging := MemoryEffect.of_sameData sameShared sameGlobal
    exact
      charging.trans
        (globalAccesses_effect performsGlobal isGlobal performed)

end WarpAccess

/-- A warp load has no effect and returns the view. -/
theorem warpLoad_effect
    {addresses : List Nat}
    {before after : MemorySystem}
    {result : List Word × WarpMemoryResult}
    (ran : warpLoad addresses before = .ok result after) :
    result.1 = addresses.map before.view ∧
      MemoryEffect (addresses.map Access.load) before after := by
  constructor
  · have values :
        (addresses.map fun address => (address, ())).map
            (fun entry => before.view entry.1) =
          addresses.map before.view := by
      rw [List.map_map]
      rfl
    rcases warpAccess_ok ran with
      ⟨none, empty, _⟩ | ⟨shared, latency, performed⟩ |
        ⟨isGlobal, lines, charged, middle, charges, performed⟩
    · rw [empty, List.map_eq_nil_iff.mp none]
      rfl
    · rw [(sharedAccesses_load shared performed).1, values]
    · obtain ⟨sameShared, sameGlobal⟩ :=
        KeepsData.of_keeps
          (chargeTransactions_keeps readLatency_keeps _ _ _) _ _ _ charges
      have sameView : middle.view = before.view := by
        rw [view, view, sameShared, sameGlobal]
      rw [(globalAccesses_load isGlobal performed).1, sameView, values]
  · have effect :=
      @warpAccess_effect _ _ (fun entry => .load entry.1) readLatency
        _ _ readLatency_keeps
        (fun address _ before after result _ loads => by
          obtain ⟨_, rfl⟩ := sharedLoad_ok loads
          exact load_effect address _)
        (fun address _ before after result _ loads => by
          obtain ⟨_, rfl⟩ := globalLoad_ok loads
          exact load_effect address _)
        _ before after result ran
    rwa [List.map_map] at effect

/-- A warp store stores the values in lane order. -/
theorem warpStore_effect
    {accesses : List (Nat × Word)}
    {before after : MemorySystem}
    {result : WarpMemoryResult}
    (ran : warpStore accesses before = .ok result after) :
    MemoryEffect (accesses.map fun entry => .store entry.1 entry.2)
      before after := by
  obtain ⟨stored, middle, stores, returned⟩ := state_bind_ok.mp ran
  obtain ⟨_, rfl⟩ := state_pure_ok.mp returned
  refine
    warpAccess_effect writeLatency_keeps
      (fun address value before after result shared performed => ?_)
      (fun address value before after result isGlobal performed =>
        globalStore_effect isGlobal performed)
      stores
  obtain ⟨latency, reached, wrote, answered⟩ := state_bind_ok.mp performed
  obtain ⟨_, rfl⟩ := state_pure_ok.mp answered
  exact sharedStore_effect shared wrote

/-- A warp atomic addition adds the values in lane order. -/
theorem warpAtomicAdd_effect
    {accesses : List (Nat × Word)}
    {before after : MemorySystem}
    {result : WarpMemoryResult}
    (ran : warpAtomicAdd accesses before = .ok result after) :
    MemoryEffect (accesses.map fun entry => .add entry.1 entry.2)
      before after := by
  obtain ⟨added, middle, adds, returned⟩ := state_bind_ok.mp ran
  obtain ⟨_, rfl⟩ := state_pure_ok.mp returned
  exact
    warpAccess_effect writeLatency_keeps
      (fun address value before after result shared performed =>
        sharedAdd_effect shared performed)
      (fun address value before after result isGlobal performed =>
        globalAdd_effect isGlobal performed)
      adds

end MemorySystem

/-! ## Instructions and the data -/

section Lanes

variable {mask : ActiveMask}

/-- The active lanes are the lanes of the mask. -/
theorem mem_activeLanes
    {start : Nat}
    {lanes : List LaneState}
    {entry : Nat × LaneState} :
    entry ∈ activeLanes mask start lanes ↔
      ∃ position,
        entry.1 = start + position ∧ lanes[position]? = some entry.2 ∧
          mask.getLsbD entry.1 = true := by
  induction lanes generalizing start with
  | nil => simp [activeLanes]
  | cons state rest inductionHypothesis =>
      have later (inRest : entry ∈ activeLanes mask (start + 1) rest) :
          ∃ position,
            entry.1 = start + position ∧
              (state :: rest)[position]? = some entry.2 ∧
              mask.getLsbD entry.1 = true := by
        obtain ⟨position, number, found, active⟩ :=
          inductionHypothesis.mp inRest
        exact ⟨position + 1, by omega, found, active⟩
      rw [activeLanes]
      constructor
      · intro member
        split at member
        · rename_i active
          rcases List.mem_cons.mp member with rfl | inRest
          · exact ⟨0, rfl, rfl, active⟩
          · exact later inRest
        · exact later member
      · rintro ⟨position, number, found, active⟩
        cases position with
        | zero =>
            cases found
            rw [Nat.add_zero] at number
            rw [number] at active
            rw [if_pos active]
            exact List.mem_cons.mpr (Or.inl (Prod.ext number rfl))
        | succ position =>
            have inRest :=
              (@inductionHypothesis (start + 1)).mpr
                ⟨position, by omega, found, active⟩
            split
            · exact List.mem_cons_of_mem _ inRest
            · exact inRest

/-- Every active lane is listed once. -/
theorem activeLanes_nodup
    (start : Nat)
    (lanes : List LaneState) :
    ((activeLanes mask start lanes).map Prod.fst).Nodup := by
  induction lanes generalizing start with
  | nil => exact List.nodup_nil
  | cons state rest inductionHypothesis =>
      rw [activeLanes]
      split
      · rw [List.map_cons, List.nodup_cons]
        refine ⟨?_, inductionHypothesis (start + 1)⟩
        intro member
        obtain ⟨entry, inRest, number⟩ := List.mem_map.mp member
        obtain ⟨position, later, _⟩ := mem_activeLanes.mp inRest
        dsimp only at number
        omega
      · exact inductionHypothesis (start + 1)

end Lanes

/-- What a successful read of a register returns. -/
theorem RegisterFile.read_ok
    {thread : Thread}
    {operand : Int}
    {value : Word}
    (ran : thread.registers.read operand = .ok value) :
    value = thread.lane.read operand := by
  unfold RegisterFile.read at ran
  split at ran
  · rename_i inBounds
    cases ran
    simp [LaneState.read, Thread.lane, inBounds]
  · cases ran

/-- What a successful write of a register leaves. -/
theorem RegisterFile.write_ok
    {thread : Thread}
    {operand : Int}
    {value : Word}
    {registers : RegisterFile 32}
    (ran : thread.registers.write operand value = .ok registers) :
    registers = (thread.lane.write operand value).registers := by
  unfold RegisterFile.write at ran
  split at ran
  · rename_i inBounds
    cases ran
    simp only [LaneState.write, Thread.lane, RegisterFile.mk.injEq]
    apply Vector.ext
    intro index inside
    simp [Vector.getElem_set, Vector.getElem_setIfInBounds]
  · cases ran

namespace InstructionExecutor

/-- A lane loop applies the scalar meaning of its body to the active lanes. -/
theorem ActiveUpdate.lanes
    {mask : ActiveMask}
    {body : Thread → Except SimError Thread}
    {transform : LaneState → LaneState}
    {before after : List Thread}
    (update : ActiveUpdate mask body 0 before after)
    (meaning :
      ∀ {thread changed : Thread},
        body thread = .ok changed →
        changed.lane = transform thread.lane) :
    after.map Thread.lane =
      onMask mask transform (before.map Thread.lane) := by
  apply List.ext_getElem?
  intro lane
  simp only [List.getElem?_map, getElem?_onMask]
  cases active : mask.getLsbD lane with
  | false =>
      rw [update.kept (by rwa [Nat.zero_add])]
      simp [Function.comp_def]
  | true =>
      cases lookup : before[lane]? with
      | none =>
          have missing : after[lane]? = none := by
            rw [List.getElem?_eq_none_iff, update.length]
            exact List.getElem?_eq_none_iff.mp lookup
          simp [missing]
      | some thread =>
          obtain ⟨changed, ran, found⟩ :=
            update.updated lookup (by rwa [Nat.zero_add])
          simp [found, meaning ran]

/-- The lane-loop bodies have the scalar meaning of their instruction. -/
theorem threadBody?_lane
    {inst : Instruction}
    {body : Thread → Except SimError Thread}
    (shape : threadBody? inst = some body)
    {thread changed : Thread}
    (ran : body thread = .ok changed) :
    changed.lane = thread.lane.execute inst := by
  have operationCase
      {operation : Word → Word → Word}
      (arithmetic : arithmeticThread operation inst thread = .ok changed) :
      changed.lane =
        thread.lane.write inst.dst
          (operation (thread.lane.read inst.src1)
            (thread.lane.read inst.src2)) := by
    simp only [arithmeticThread, except_bind_ok] at arithmetic
    obtain ⟨val1, read1, val2, read2, registers, wrote, returned⟩ :=
      arithmetic
    cases returned
    rw [RegisterFile.read_ok read1, RegisterFile.read_ok read2] at wrote
    rw [Thread.lane, RegisterFile.write_ok wrote]
    rfl
  unfold threadBody? at shape
  unfold LaneState.execute
  cases opcode : inst.opcode <;> simp only [opcode] at shape <;>
    cases shape
  case add | sub | mul => exact operationCase ran
  case mov =>
    dsimp only
    unfold movThread at ran
    split at ran
    · rename_i immediate
      obtain ⟨registers, wrote, returned⟩ := except_bind_ok.mp ran
      cases returned
      rw [if_pos immediate, Thread.lane, RegisterFile.write_ok wrote]
      rfl
    · rename_i register
      obtain ⟨val, read, rest⟩ := except_bind_ok.mp ran
      obtain ⟨registers, wrote, returned⟩ := except_bind_ok.mp rest
      cases returned
      rw [RegisterFile.read_ok read] at wrote
      rw [if_neg register, Thread.lane, RegisterFile.write_ok wrote]
      rfl
  case cmp =>
    simp only [cmpThread, except_bind_ok] at ran
    obtain ⟨val1, read1, val2, read2, returned⟩ := ran
    cases returned
    rw [RegisterFile.read_ok read1, RegisterFile.read_ok read2]
    rfl

/-- A successful address operand is that of the lane. -/
theorem effectiveAddress_ok
    {src : Int}
    {inst : Instruction}
    {thread : Thread}
    {address : Nat}
    (ran : effectiveAddress src inst thread = .ok address) :
    address = thread.lane.address src inst := by
  unfold effectiveAddress at ran
  unfold LaneState.address
  split at ran
  · rename_i immediate
    cases ran
    rw [if_pos immediate]
  · rename_i register
    obtain ⟨base, read, returned⟩ := except_bind_ok.mp ran
    cases returned
    rw [if_neg register, RegisterFile.read_ok read]

/-- Address and value of a store are those of the lane. -/
theorem storeOperand_ok
    {inst : Instruction}
    {thread : Thread}
    {operand : Nat × Word}
    (ran : storeOperand inst thread = .ok operand) :
    operand =
      (thread.lane.address inst.src2 inst, thread.lane.read inst.src1) := by
  obtain ⟨address, addressed, rest⟩ := except_bind_ok.mp ran
  obtain ⟨value, read, returned⟩ := except_bind_ok.mp rest
  cases returned
  rw [effectiveAddress_ok addressed, RegisterFile.read_ok read]

/-- Gathering reads the operands of the active lanes. -/
theorem gatherActive_lanes
    {mask : ActiveMask}
    {body : Thread → Except SimError α}
    {operand : LaneState → α}
    (meaning :
      ∀ {thread : Thread} {value : α},
        body thread = .ok value → value = operand thread.lane)
    {start : Nat}
    {threads : List Thread}
    {values : List (Nat × α)}
    (ran : gatherActive mask body start threads = .ok values) :
    values =
      (activeLanes mask start (threads.map Thread.lane)).map fun entry =>
        (entry.1, operand entry.2) := by
  induction threads generalizing start values with
  | nil =>
      cases ran
      rfl
  | cons thread rest inductionHypothesis =>
      obtain ⟨active, tested, gathered⟩ := except_bind_ok.mp ran
      have isActive := ActiveMask.test_ok tested
      rw [List.map_cons, activeLanes, isActive]
      cases active with
      | false => exact inductionHypothesis gathered
      | true =>
          rw [if_pos rfl] at gathered ⊢
          obtain ⟨value, read, later⟩ := except_bind_ok.mp gathered
          obtain ⟨others, found, returned⟩ := except_bind_ok.mp later
          cases returned
          rw [meaning read, inductionHypothesis found, List.map_cons]

/-- Writing loaded values back writes them to their lanes. -/
theorem writeLanes_lanes
    {dst : Int}
    {loaded : Nat → Word}
    {values : List (Nat × Word)}
    (distinct : (values.map Prod.fst).Nodup)
    (areLoaded : ∀ entry ∈ values, entry.2 = loaded entry.1)
    {before after : List Thread}
    (ran : writeLanes dst values before = (after, .ok ())) :
    ∀ lane,
      (after.map Thread.lane)[lane]? =
        (before.map Thread.lane)[lane]?.map fun state =>
          if lane ∈ values.map Prod.fst then
            state.write dst (loaded lane)
          else
            state := by
  induction values generalizing before with
  | nil =>
      cases ran
      intro lane
      simp [Function.comp_def]
  | cons entry rest inductionHypothesis =>
      obtain ⟨position, value⟩ := entry
      rw [List.map_cons, List.nodup_cons] at distinct
      have isLoaded : value = loaded position :=
        areLoaded (position, value) List.mem_cons_self
      have restLoaded :
          ∀ entry ∈ rest, entry.2 = loaded entry.1 := fun other member =>
        areLoaded other (List.mem_cons_of_mem _ member)
      have elsewhere
          {lane : Nat}
          (other : lane ≠ position) :
          (lane ∈ ((position, value) :: rest).map Prod.fst) =
            (lane ∈ rest.map Prod.fst) := by
        simp [other]
      rw [writeLanes] at ran
      split at ran
      · rename_i missing
        intro lane
        rw [inductionHypothesis distinct.2 restLoaded ran lane]
        by_cases same : lane = position
        · subst same
          simp [missing]
        · simp only [elsewhere same]
      · rename_i thread found
        split at ran
        · cases ran
        · rename_i registers wrote
          intro lane
          rw [inductionHypothesis distinct.2 restLoaded ran lane]
          by_cases same : lane = position
          · subst same
            have inside := (List.getElem?_eq_some_iff.mp found).1
            have notLater : lane ∉ rest.map Prod.fst := distinct.1
            rw [List.getElem?_map, List.getElem?_set_self inside,
              List.getElem?_map, found]
            simp only [Option.map_some, List.map_cons, List.mem_cons,
              true_or, if_true, if_neg notLater, ← isLoaded, Thread.lane,
              RegisterFile.write_ok wrote]
            rfl
          · rw [List.getElem?_map, List.getElem?_set_ne (Ne.symm same),
              ← List.getElem?_map]
            simp only [elsewhere same]

/-- Shadow pcs are no part of the lanes. -/
theorem advanceTo_lanes
    {mask : ActiveMask}
    {pc : Nat}
    {before after : Warp × MemorySystem}
    {value : Unit}
    (ran : advanceTo mask pc before = .ok value after) :
    after.1.lanes = before.1.lanes ∧ after.2 = before.2 := by
  obtain ⟨threads, update, rfl⟩ := advanceTo_ok ran
  refine ⟨update.map_eq Thread.lane fun shadowed => ?_, rfl⟩
  simp only [shadowThread, Except.ok.injEq] at shadowed
  simp [← shadowed, Thread.lane]

/-- What an instruction does to the lanes and to the data. -/
structure Effect
    (inst : Instruction)
    (before after : Warp × MemorySystem) :
    Prop where
  lanes :
    after.1.lanes =
      onMask before.1.activeMask
        (LaneState.executeWith inst before.2.view) before.1.lanes
  memory :
    MemoryEffect (before.1.paths.accesses inst) before.2 after.2

/-- Instructions that are not memory instructions access nothing. -/
theorem accesses_eq_nil
    {inst : Instruction}
    (notMemory : ¬ IsMemory inst)
    (state : PathState) :
    state.accesses inst = [] := by
  unfold PathState.accesses
  rw [List.filterMap_eq_nil_iff]
  intro entry _
  unfold LaneState.access?
  cases opcode : inst.opcode <;>
    simp only [IsMemory, opcode, true_or, or_true, not_true_eq_false]
      at notMemory ⊢

/-- Control keeps lanes and data. -/
theorem Effect.of_control
    {inst : Instruction}
    {before after : Warp × MemorySystem}
    (control :
      inst.opcode.isControl = true ∨ inst.opcode = .barrier)
    (lanes : after.1.lanes = before.1.lanes)
    (memory : after.2 = before.2) :
    Effect inst before after := by
  have notMemory : ¬ IsMemory inst := by
    unfold IsMemory
    rcases control with control | control
    · cases opcode : inst.opcode <;>
        simp [Opcode.isControl, opcode] at control ⊢
    · simp [control]
  refine ⟨?_, ?_⟩
  · have alone :
        LaneState.executeWith inst before.2.view = fun lane => lane := by
      funext lane
      unfold LaneState.executeWith LaneState.execute
      rw [if_neg fun isLoad => notMemory (Or.inl isLoad)]
      rcases control with control | control
      · cases opcode : inst.opcode <;>
          simp [Opcode.isControl, opcode] at control ⊢
      · rw [control]
    rw [alone, onMask_id, lanes]
  · rw [accesses_eq_nil notMemory, memory]
    exact .of_sameData rfl rfl

/-- The effect of the instructions that only change threads. -/
theorem executeThreads_effect
    {inst : Instruction}
    {body : Thread → Except SimError Thread}
    (shape : threadBody? inst = some body)
    {before after : Warp × MemorySystem}
    {result : ExecutionResult}
    (ran : executeThreads before.1 body before = .ok result after) :
    Effect inst before after := by
  obtain ⟨_, sameMemory, threads, update, shadow, afterShape⟩ :=
    executeThreads_ok ran
  have notMemory : ¬ IsMemory inst := by
    unfold IsMemory
    rcases threadBody?_opcode shape with
      opcode | opcode | opcode | opcode | opcode <;> simp [opcode]
  refine ⟨?_, ?_⟩
  · have shadowed :
        after.1.threads.map Thread.lane = threads.map Thread.lane := by
      refine shadow.map_eq Thread.lane fun shadowed => ?_
      simp only [shadowThread, Except.ok.injEq] at shadowed
      simp [← shadowed, Thread.lane]
    have meaning :
        LaneState.executeWith inst before.2.view =
          LaneState.execute inst := by
      funext lane
      exact if_neg fun isLoad => notMemory (Or.inl isLoad)
    rw [meaning, Warp.lanes, shadowed]
    exact update.lanes (threadBody?_lane shape)
  · rw [accesses_eq_nil notMemory, sameMemory]
    exact .of_sameData rfl rfl

/-- Loading for some lanes writes what their addresses name. -/
theorem loadLanes_effect
    {inst : Instruction}
    {lanes : List (Nat × Nat)}
    {before after : Warp × MemorySystem}
    {result : ExecutionResult}
    {loaded : Nat → Word}
    (distinct : (lanes.map Prod.fst).Nodup)
    (areLoaded :
      ∀ entry ∈ lanes, before.2.view entry.2 = loaded entry.1)
    (ran : loadLanes inst lanes before = .ok result after) :
    (∀ lane,
        after.1.lanes[lane]? =
          before.1.lanes[lane]?.map fun state =>
            if lane ∈ lanes.map Prod.fst then
              state.write inst.dst (loaded lane)
            else
              state) ∧
      MemoryEffect (lanes.map fun entry => .load entry.2)
        before.2 after.2 := by
  cases lanes with
  | nil =>
      obtain ⟨_, rfl⟩ := state_pure_ok.mp ran
      refine ⟨fun lane => ?_, .of_sameData rfl rfl⟩
      simp
  | cons first rest =>
      obtain ⟨values, reached, performed, writes⟩ := state_bind_ok.mp ran
      obtain ⟨_, written, wrote, returned⟩ := state_bind_ok.mp writes
      obtain ⟨_, rfl⟩ := state_pure_ok.mp returned
      obtain ⟨warpKept, loads⟩ := onMemory_ok performed
      obtain ⟨threads, lanesWritten, rfl⟩ := writeBack_ok wrote
      obtain ⟨sameValues, effect⟩ := MemorySystem.warpLoad_effect loads
      generalize first :: rest = lanes at *
      have pairs :
          (lanes.map Prod.fst).zip values.1 =
            lanes.map fun entry => (entry.1, loaded entry.1) := by
        rw [sameValues, List.map_map, List.zip_map', List.map_inj_left]
        intro entry member
        rw [← areLoaded entry member]
        rfl
      rw [warpKept, pairs] at lanesWritten
      have positions :
          (lanes.map fun entry => (entry.1, loaded entry.1)).map Prod.fst =
            lanes.map Prod.fst := by
        rw [List.map_map]
        rfl
      have stateAfter :=
        writeLanes_lanes (positions ▸ distinct)
          (fun entry member => by
            obtain ⟨lane, _, rfl⟩ := List.mem_map.mp member
            rfl)
          lanesWritten
      rw [positions] at stateAfter
      rw [List.map_map] at effect
      exact ⟨stateAfter, effect⟩

/-- The effect of loading for the active lanes. -/
theorem executeLoad_effect
    {inst : Instruction}
    (opcode : inst.opcode = .load)
    {before after : Warp × MemorySystem}
    {result : ExecutionResult}
    (ran : executeLoad inst before.1 before = .ok result after) :
    Effect inst before after := by
  obtain ⟨lanes, entry, lifted, loads⟩ := state_bind_ok.mp ran
  obtain ⟨gathered, rfl⟩ := liftExcept_ok lifted
  obtain ⟨loaded, middle, accessed, advances⟩ := state_bind_ok.mp loads
  obtain ⟨_, final, advanced, returned⟩ := state_bind_ok.mp advances
  obtain ⟨_, rfl⟩ := state_pure_ok.mp returned
  have shape := gatherActive_lanes effectiveAddress_ok gathered
  obtain ⟨sameLanes, sameMemory⟩ := advanceTo_lanes advanced
  have positions :
      lanes.map Prod.fst =
        (activeLanes entry.1.activeMask 0 entry.1.lanes).map Prod.fst := by
    rw [shape, List.map_map]
    rfl
  let value (lane : Nat) : Word :=
    ((entry.1.lanes[lane]?).map fun state =>
      entry.2.view (state.address inst.src1 inst)).getD 0
  have areLoaded :
      ∀ pair ∈ lanes, entry.2.view pair.2 = value pair.1 := by
    intro pair member
    rw [shape] at member
    obtain ⟨active, isActive, rfl⟩ := List.mem_map.mp member
    obtain ⟨position, number, found, _⟩ := mem_activeLanes.mp isActive
    rw [Nat.zero_add] at number
    simp only [value, number]
    rw [show entry.1.lanes[position]? = some active.2 from found]
    rfl
  obtain ⟨stateAfter, effect⟩ :=
    loadLanes_effect
      (positions ▸ activeLanes_nodup 0 entry.1.lanes) areLoaded accessed
  refine ⟨?_, ?_⟩
  · rw [sameLanes]
    apply List.ext_getElem?
    intro lane
    rw [stateAfter lane, getElem?_onMask]
    cases found : entry.1.lanes[lane]? with
    | none => rfl
    | some state =>
        have isListed :
            lane ∈ lanes.map Prod.fst ↔
              entry.1.activeMask.getLsbD lane = true := by
          rw [positions, List.mem_map]
          constructor
          · rintro ⟨active, isActive, rfl⟩
            obtain ⟨_, _, _, isSet⟩ := mem_activeLanes.mp isActive
            exact isSet
          · intro isSet
            refine ⟨(lane, state), mem_activeLanes.mpr ?_, rfl⟩
            exact ⟨lane, (Nat.zero_add lane).symm, found, isSet⟩
        simp only [Option.map_some, isListed, LaneState.executeWith, opcode,
          if_true, value, found, Option.getD_some]
  · rw [sameMemory]
    have performed :
        entry.1.paths.accesses inst =
          lanes.map fun pair => .load pair.2 := by
      rw [shape, List.map_map, PathState.accesses,
        ← List.filterMap_eq_map]
      congr 1
      funext active
      simp only [LaneState.access?, opcode]
      rfl
    rw [performed]
    exact effect

/-- The effect of storing or adding for the active lanes. -/
theorem executeStore_effect
    {inst : Instruction}
    {operation : List (Nat × Word) → MemoryM WarpMemoryResult}
    {effect : Nat × Word → Access Nat Word}
    (notLoad : inst.opcode ≠ .load)
    (keeps : ∀ lane : LaneState, lane.execute inst = lane)
    (performs :
      ∀ {accesses : List (Nat × Word)} {before after : MemorySystem}
          {result : WarpMemoryResult},
        operation accesses before = .ok result after →
        MemoryEffect (accesses.map effect) before after)
    (isAccess :
      ∀ lane : LaneState,
        lane.access? inst =
          some
            (effect (lane.address inst.src2 inst, lane.read inst.src1)))
    {before after : Warp × MemorySystem}
    {result : ExecutionResult}
    (ran : executeStore operation inst before.1 before = .ok result after) :
    Effect inst before after := by
  obtain ⟨lanes, entry, lifted, stores⟩ := state_bind_ok.mp ran
  obtain ⟨gathered, rfl⟩ := liftExcept_ok lifted
  obtain ⟨stored, middle, accessed, advances⟩ := state_bind_ok.mp stores
  obtain ⟨_, final, advanced, returned⟩ := state_bind_ok.mp advances
  obtain ⟨_, rfl⟩ := state_pure_ok.mp returned
  have shape :=
    @gatherActive_lanes _ _ _
      (fun lane : LaneState =>
        (lane.address inst.src2 inst, lane.read inst.src1))
      storeOperand_ok _ _ _ gathered
  obtain ⟨sameLanes, sameMemory⟩ := advanceTo_lanes advanced
  have sameWarp := (storeLanes_ok accessed).2
  refine ⟨?_, ?_⟩
  · have alone :
        LaneState.executeWith inst entry.2.view = fun lane => lane := by
      funext lane
      rw [LaneState.executeWith, if_neg notLoad, keeps lane]
    rw [sameLanes, sameWarp, alone, onMask_id]
  · have performed :
        entry.1.paths.accesses inst =
          (lanes.map Prod.snd).map effect := by
      rw [shape, List.map_map, List.map_map, PathState.accesses,
        ← List.filterMap_eq_map]
      congr 1
      funext active
      exact isAccess active.2
    rw [sameMemory, performed]
    generalize lanes.map Prod.snd = accesses at accessed ⊢
    cases accesses with
    | nil =>
        obtain ⟨_, rfl⟩ := state_pure_ok.mp accessed
        exact .of_sameData rfl rfl
    | cons first rest =>
        obtain ⟨timing, reached, ran, answered⟩ :=
          state_bind_ok.mp accessed
        obtain ⟨_, rfl⟩ := state_pure_ok.mp answered
        exact performs (onMemory_ok ran).2

/-- The effect of control and of a barrier. -/
theorem executeControl_effect
    {inst : Instruction}
    (control : inst.opcode.isControl = true ∨ inst.opcode = .barrier)
    {before after : Warp × MemorySystem}
    {result : ExecutionResult}
    (ran : execute inst before = .ok result after) :
    Effect inst before after := by
  rw [execute_eq] at ran
  cases opcode : inst.opcode with
  | branch =>
      simp only [executeOpcode, opcode] at ran
      obtain ⟨taken, entry, computed, branches⟩ := state_bind_ok.mp ran
      obtain ⟨_, rfl⟩ := liftExcept_ok computed
      split at branches
      · obtain ⟨_, final, advanced, returned⟩ := state_bind_ok.mp branches
        obtain ⟨_, rfl⟩ := state_pure_ok.mp returned
        obtain ⟨lanes, memory⟩ := advanceTo_lanes advanced
        exact .of_control control lanes memory
      · split at branches
        · obtain ⟨_, final, advanced, returned⟩ :=
            state_bind_ok.mp branches
          obtain ⟨_, rfl⟩ := state_pure_ok.mp returned
          obtain ⟨lanes, memory⟩ := advanceTo_lanes advanced
          exact .of_control control lanes memory
        · obtain ⟨_, pushed, modified, advances⟩ :=
            state_bind_ok.mp branches
          obtain ⟨_, final, advanced, returned⟩ :=
            state_bind_ok.mp advances
          obtain ⟨_, rfl⟩ := state_pure_ok.mp returned
          obtain ⟨lanes, memory⟩ := advanceTo_lanes advanced
          rw [← state_modify_ok.mp modified] at lanes memory
          exact .of_control control lanes memory
  | ssy =>
      simp only [executeOpcode, opcode] at ran
      obtain ⟨_, pushed, modified, advances⟩ := state_bind_ok.mp ran
      obtain ⟨_, final, advanced, returned⟩ := state_bind_ok.mp advances
      obtain ⟨_, rfl⟩ := state_pure_ok.mp returned
      obtain ⟨lanes, memory⟩ := advanceTo_lanes advanced
      rw [← state_modify_ok.mp modified] at lanes memory
      exact .of_control control lanes memory
  | sync =>
      simp only [executeOpcode, opcode] at ran
      unfold executeSync Warp.popSimtStack at ran
      cases stack : before.1.simtStack with
      | nil =>
          rw [stack] at ran
          exact (state_throw_not_ok ran).elim
      | cons entry others =>
          rw [stack] at ran
          obtain ⟨_, resumed, modified, advances⟩ := state_bind_ok.mp ran
          obtain ⟨_, final, advanced, returned⟩ :=
            state_bind_ok.mp advances
          obtain ⟨_, rfl⟩ := state_pure_ok.mp returned
          obtain ⟨lanes, memory⟩ := advanceTo_lanes advanced
          rw [← state_modify_ok.mp modified] at lanes memory
          exact .of_control control lanes memory
  | barrier =>
      simp only [executeOpcode, opcode] at ran
      unfold executeBarrier at ran
      split at ran
      · exact (state_throw_not_ok ran).elim
      · obtain ⟨_, final, advanced, returned⟩ := state_bind_ok.mp ran
        obtain ⟨_, rfl⟩ := state_pure_ok.mp returned
        obtain ⟨lanes, memory⟩ := advanceTo_lanes advanced
        exact .of_control control lanes memory
  | add | sub | mul | mov | load | store | cmp | atomicAdd | unknown =>
      simp [Opcode.isControl, opcode] at control

/-- What any instruction that executes does to the lanes and to the data. -/
theorem execute_effect
    {inst : Instruction}
    {before after : Warp × MemorySystem}
    {result : ExecutionResult}
    (ran : execute inst before = .ok result after) :
    Effect inst before after := by
  cases opcode : inst.opcode with
  | add | sub | mul | mov | cmp =>
      obtain ⟨body, shape⟩ : ∃ body, threadBody? inst = some body := by
        simp only [threadBody?, opcode]
        exact ⟨_, rfl⟩
      rw [execute_of_threadBody? shape] at ran
      exact executeThreads_effect shape ran
  | load =>
      simp only [execute_eq, executeOpcode, opcode] at ran
      exact executeLoad_effect opcode ran
  | store =>
      simp only [execute_eq, executeOpcode, opcode] at ran
      refine
        executeStore_effect (by simp [opcode])
          (fun lane => by simp only [LaneState.execute, opcode])
          MemorySystem.warpStore_effect (fun lane => ?_) ran
      simp only [LaneState.access?, opcode]
  | atomicAdd =>
      simp only [execute_eq, executeOpcode, opcode] at ran
      refine
        executeStore_effect (by simp [opcode])
          (fun lane => by simp only [LaneState.execute, opcode])
          MemorySystem.warpAtomicAdd_effect (fun lane => ?_) ran
      simp only [LaneState.access?, opcode]
  | branch | ssy | sync =>
      exact
        executeControl_effect (Or.inl (by rw [opcode]; rfl)) ran
  | barrier => exact executeControl_effect (Or.inr opcode) ran
  | unknown =>
      simp only [execute_eq, executeOpcode, opcode] at ran
      exact (state_throw_not_ok ran).elim

/--
Refinement: an instruction that executes moves the paths of its warp as the
path machine with memory does, and accesses the memory as it does.
-/
theorem execute_memory
    {inst : Instruction}
    {warp executed : Warp}
    {memory memory' : MemorySystem}
    {result : ExecutionResult}
    (ran :
      execute inst (warp, memory) = .ok result (executed, memory')) :
    warp.paths.executeWith inst memory.view = some executed.paths ∧
      MemoryEffect (warp.paths.accesses inst) memory memory' := by
  have effect := execute_effect ran
  obtain ⟨next, moved, current, pending⟩ := execute_control ran
  refine ⟨?_, effect.memory⟩
  rw [PathState.executeWith, moved]
  have lanes :
      onMask warp.activeMask (LaneState.executeWith inst memory.view)
          warp.lanes =
        executed.paths.lanes :=
    effect.lanes.symm
  simp only [Option.map_some, Option.some.injEq, current, pending]
  rw [show warp.paths.lanes = warp.lanes from rfl,
    show warp.paths.current.mask = warp.activeMask from rfl, lanes]

end InstructionExecutor

end SimSm
