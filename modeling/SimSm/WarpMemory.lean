import Mathlib.Algebra.BigOperators.Group.List.Basic
import SimSm.Atomicity
import SimSm.CacheLedger
import SimSm.Library.Pointwise

namespace SimSm

/-!
# Warp accesses to memory

Warp instructions whose addresses are in one space and in bounds return, in
every state of the caches.  What they leave in a cell is decided by the accesses
to that cell alone, in lane order.
-/

open Outcome

/-! ## Caches in use -/

/-- A cache as it was built and as lookups leave it. -/
inductive Cache.InUse : Cache → Prop where
  | built
      {numSets associativity lineSize : Nat}
      {policyName : String}
      {rng : Nat → Nat → Nat}
      {cache : Cache}
      (isNew :
        Cache.new numSets associativity lineSize policyName rng =
          .ok cache) :
      InUse cache
  | used
      {address : Nat}
      {isWrite : Bool}
      {result : CacheAccessResult}
      {before after : Cache}
      (inUse : InUse before)
      (ran : Cache.lookupAndFill address isWrite before = .ok result after) :
      InUse after

/-- A cache that can be built has dimensions and a supported policy. -/
theorem Cache.new_ok
    {numSets associativity lineSize : Nat}
    {policyName : String}
    {rng : Nat → Nat → Nat}
    {cache : Cache}
    (isNew :
      Cache.new numSets associativity lineSize policyName rng = .ok cache) :
    (0 < numSets ∧ 0 < associativity ∧ 0 < lineSize) ∧
      (policyName = "LRU" ∨ policyName = "FIFO" ∨ policyName = "Random") := by
  unfold Cache.new at isNew
  split at isNew
  · cases isNew
  · rename_i allowed
    have dimensions : 0 < numSets ∧ 0 < associativity ∧ 0 < lineSize := by
      omega
    refine ⟨dimensions, ?_⟩
    obtain ⟨policies, each, _⟩ := except_map_ok.mp isNew
    have first : (List.range numSets)[0]? = some 0 :=
      List.getElem?_range dimensions.1
    obtain ⟨policy, _, isPolicy⟩ :=
      Pointwise.partner (except_mapM_ok.mp each) first
    unfold ReplacementPolicy.new at isPolicy
    by_contra unsupported
    rw [not_or, not_or] at unsupported
    rw [if_neg unsupported.1, if_neg unsupported.2.1,
      if_neg unsupported.2.2] at isPolicy
    cases isPolicy

/-- The policies of a cache in use can serve every set. -/
theorem Cache.InUse.sound
    {cache : Cache}
    (inUse : cache.InUse) :
    CacheLedger.Sound cache ∧ 0 < cache.numSets ∧
      0 < cache.associativity := by
  induction inUse with
  | built isNew =>
      obtain ⟨dimensions, supported⟩ := Cache.new_ok isNew
      obtain ⟨fresh, isFresh, sound, _, rfl, rfl, _⟩ :=
        CacheLedger.sound_new dimensions supported _
      rw [isNew] at isFresh
      cases isFresh
      exact ⟨sound, dimensions.1, dimensions.2.1⟩
  | @used address isWrite result before after _ ran sound =>
      obtain ⟨soundBefore, positiveSets, positive⟩ := sound
      obtain ⟨found, way, next, performed, placed, soundAfter⟩ :=
        soundBefore.perform positiveSets positive ⟨address, isWrite⟩
      rw [Lru.Request.perform_eq, ran] at performed
      cases performed
      refine ⟨soundAfter, ?_, ?_⟩
      · rwa [placed.numSets]
      · rwa [placed.associativity]

/-- A lookup in a cache in use returns. -/
theorem Cache.lookupAndFill_returns
    (address : Nat)
    (isWrite : Bool) :
    Returns Cache.InUse (Cache.lookupAndFill address isWrite) := by
  intro cache inUse
  obtain ⟨sound, positiveSets, positive⟩ := inUse.sound
  obtain ⟨result, way, after, performed, _, _⟩ :=
    sound.perform positiveSets positive ⟨address, isWrite⟩
  rw [Lru.Request.perform_eq] at performed
  exact ⟨result, after, performed, .used inUse performed⟩

namespace MemorySystem

/-- Both caches are in use; memories and latencies are arbitrary. -/
structure InUse (memory : MemorySystem) : Prop where
  l1Cache : memory.l1Cache.InUse
  l2Cache : memory.l2Cache.InUse

theorem onL1_returns
    {operation : CacheM α}
    (returns : Returns Cache.InUse operation) :
    Returns InUse (onL1 operation) := by
  intro memory inUse
  obtain ⟨value, cache, ran, cacheInUse⟩ :=
    returns memory.l1Cache inUse.l1Cache
  refine
    ⟨value, { memory with l1Cache := cache }, ?_, cacheInUse,
      inUse.l2Cache⟩
  rw [onL1, ran]

theorem onL2_returns
    {operation : CacheM α}
    (returns : Returns Cache.InUse operation) :
    Returns InUse (onL2 operation) := by
  intro memory inUse
  obtain ⟨value, cache, ran, cacheInUse⟩ :=
    returns memory.l2Cache inUse.l2Cache
  refine
    ⟨value, { memory with l2Cache := cache }, ?_, inUse.l1Cache,
      cacheInUse⟩
  rw [onL2, ran]

theorem readLatency_returns (address : Nat) :
    Returns InUse (readLatency address) := by
  unfold readLatency
  refine
    .bind .get fun memory =>
      .bind (onL1_returns (Cache.lookupAndFill_returns _ _))
        fun l1Result => ?_
  split
  · exact .pure _
  · refine
      .bind (onL2_returns (Cache.lookupAndFill_returns _ _))
        fun l2Result => ?_
    dsimp only
    split <;> split <;> exact .pure _

theorem writeLatency_returns (address : Nat) :
    Returns InUse (writeLatency address) := by
  unfold writeLatency
  refine
    .bind .get fun memory =>
      .bind (onL1_returns (Cache.lookupAndFill_returns _ _))
        fun l1Result => ?_
  have charge (latency : Nat) :
      Returns InUse
        (if l1Result.dirtyEviction = true then
          pure (latency + memory.config.writebackLatency, 1)
        else
          pure (latency, 0) : MemoryM (Nat × Nat)) := by
    split <;> exact .pure _
  dsimp only
  split
  · exact .bind (.pure _) charge
  · refine
      .bind (onL2_returns (Cache.lookupAndFill_returns _ _))
        fun l2Result => ?_
    split <;> exact .bind (.pure _) charge

theorem chargeTransactions_returns
    {latencyOf : Nat → MemoryM (Nat × Nat)}
    (returns : ∀ address, Returns InUse (latencyOf address))
    (lines : List Nat)
    (maxLatency dirtyEvictions : Nat) :
    Returns InUse
      (chargeTransactions latencyOf lines maxLatency dirtyEvictions) := by
  induction lines generalizing maxLatency dirtyEvictions with
  | nil => exact .pure _
  | cons line rest inductionHypothesis =>
      exact .bind (returns line) fun _ => inductionHypothesis _ _

/-! ## Cells -/

/-- A cell of one of the two memories. -/
inductive Cell where
  | shared (offset : Nat)
  | global (address : Nat)
  deriving Repr, DecidableEq

/-- The cell that an address names. -/
def cellOf (address : Nat) : Cell :=
  if isShared address then
    .shared (address - sharedMemBase)
  else
    .global address

/-- What a cell holds. -/
def read (memory : MemorySystem) : Cell → Word
  | .shared offset => memory.sharedMemory.data offset
  | .global address => memory.globalMemory.data address

/-- Whether the memories have a cell. -/
def HasCell (memory : MemorySystem) : Cell → Prop
  | .shared offset => offset < memory.sharedMemory.size
  | .global address => address < memory.globalMemory.size

/-- Addresses that one warp instruction may have: one space, in bounds. -/
structure Addressable
    (memory : MemorySystem)
    (addresses : List Nat) : Prop where
  oneSpace :
    ∀ address ∈ addresses,
      ∀ other ∈ addresses, isShared address = isShared other
  inBounds : ∀ address ∈ addresses, memory.HasCell (cellOf address)

/-- Both memories have the sizes, banks and words of another system's. -/
theorem contents_of_fields
    {memory other : MemorySystem}
    (shared : memory.sharedMemory = other.sharedMemory)
    (global : memory.globalMemory = other.globalMemory) :
    contents memory = contents other :=
  Prod.ext shared global

section Contents

variable {memory other : MemorySystem}

/-- Cells are read from the contents. -/
theorem read_of_contents
    (same : contents memory = contents other) :
    memory.read = other.read := by
  obtain ⟨shared, global⟩ := Prod.mk.inj same
  funext cell
  cases cell with
  | shared offset => rw [read, read, shared]
  | global address => rw [read, read, global]

/-- Whether there is a cell depends on the contents. -/
theorem addressable_of_contents
    {addresses : List Nat}
    (same : contents memory = contents other)
    (addressable : Addressable other addresses) :
    Addressable memory addresses := by
  obtain ⟨shared, global⟩ := Prod.mk.inj same
  refine ⟨addressable.oneSpace, fun address member => ?_⟩
  have inBounds := addressable.inBounds address member
  unfold HasCell at inBounds ⊢
  rwa [shared, global]

end Contents

/-! ## Writes -/

/--
What a cell holds after accesses that combine their values with its word, one
after the other.
-/
def combined
    (combine : Word → Word → Word)
    (accesses : List (Nat × Word))
    (memory : MemorySystem)
    (cell : Cell) :
    Word :=
  ((accesses.filter fun access => cellOf access.1 = cell).map
    Prod.snd).foldl combine (memory.read cell)

/-- Accesses were combined with their cells, and nothing else happened. -/
structure Written
    (combine : Word → Word → Word)
    (accesses : List (Nat × Word))
    (before after : MemorySystem) : Prop where
  shared :
    after.sharedMemory =
      { before.sharedMemory with
        data := fun offset =>
          combined combine accesses before (.shared offset) }
  global :
    after.globalMemory =
      { before.globalMemory with
        data := fun address =>
          combined combine accesses before (.global address) }

/-- Writes in a row decide a cell by the writes to it. -/
theorem applied_at
    (combine : Word → Word → Word)
    (data : Nat → Word)
    (writes : List (Nat × Word))
    (address : Nat) :
    Atomicity.applied combine data writes address =
      ((writes.filter fun write => write.1 = address).map
        Prod.snd).foldl combine (data address) := by
  induction writes generalizing data with
  | nil => rfl
  | cons write rest inductionHypothesis =>
      change
        Atomicity.applied combine
            (Function.update data write.1
              (combine (data write.1) write.2)) rest address =
          _
      rw [inductionHypothesis, List.filter_cons]
      by_cases here : write.1 = address
      · subst here
        rw [Function.update_self, if_pos (decide_eq_true rfl),
          List.map_cons, List.foldl_cons]
      · rw [Function.update_of_ne (Ne.symm here),
          if_neg (by rwa [decide_eq_true_iff])]

/-- Offsets are taken of addresses, not of values. -/
theorem value_offset
    (access : Nat × Word) :
    (Prod.snd ∘ Atomicity.offset) access = access.2 := by
  obtain ⟨address, value⟩ := access
  rfl

section Spaces

variable {combine : Word → Word → Word}
variable {accesses : List (Nat × Word)}
variable {before after : MemorySystem}

/-- Shared accesses that are done are combined with their cells. -/
theorem written_shared
    (allShared : ∀ access ∈ accesses, isShared access.1 = true)
    (done :
      after =
        Atomicity.withShared before
          (Atomicity.applied combine before.sharedMemory.data
            (accesses.map Atomicity.offset))) :
    Written combine accesses before after := by
  subst done
  constructor
  · have cells :
        Atomicity.applied combine before.sharedMemory.data
            (accesses.map Atomicity.offset) =
          fun offset =>
            combined combine accesses before (.shared offset) := by
      funext offset
      have toCell :
          ((accesses.map Atomicity.offset).filter fun write =>
              write.1 = offset).map Prod.snd =
            (accesses.filter fun access =>
              cellOf access.1 = .shared offset).map Prod.snd := by
        have sameAccesses :
            (accesses.filter
                ((fun write : Nat × Word => decide (write.1 = offset)) ∘
                  Atomicity.offset)) =
              accesses.filter fun access =>
                cellOf access.1 = .shared offset := by
          refine List.filter_congr fun access member => ?_
          rw [Bool.eq_iff_iff, decide_eq_true_iff, cellOf,
            if_pos (allShared access member), Cell.shared.injEq]
          rw [Function.comp_apply, decide_eq_true_iff, Atomicity.offset]
        rw [List.filter_map, List.map_map, sameAccesses]
        exact List.map_congr_left fun access _ => value_offset access
      rw [applied_at, toCell, combined, read]
    rw [Atomicity.withShared, cells]
  · have none
        (address : Nat) :
        (accesses.filter fun access =>
            cellOf access.1 = .global address) =
          [] := by
      rw [List.filter_eq_nil_iff]
      intro access member
      rw [cellOf, if_pos (allShared access member)]
      simp
    simp only [Atomicity.withShared, combined, none, List.map_nil,
      List.foldl_nil, read]

/-- Global accesses that are done are combined with their cells. -/
theorem written_global
    (allGlobal : ∀ access ∈ accesses, isShared access.1 = false)
    (done :
      after =
        Atomicity.withGlobal before
          (Atomicity.applied combine before.globalMemory.data accesses)) :
    Written combine accesses before after := by
  subst done
  constructor
  · have none
        (offset : Nat) :
        (accesses.filter fun access =>
            cellOf access.1 = .shared offset) =
          [] := by
      rw [List.filter_eq_nil_iff]
      intro access member
      rw [cellOf, allGlobal access member]
      simp
    simp only [Atomicity.withGlobal, combined, none, List.map_nil,
      List.foldl_nil, read]
  · have cells :
        Atomicity.applied combine before.globalMemory.data accesses =
          fun address =>
            combined combine accesses before (.global address) := by
      funext address
      have toCell :
          (accesses.filter fun write => write.1 = address) =
            accesses.filter fun access =>
              cellOf access.1 = .global address := by
        refine List.filter_congr fun access member => ?_
        rw [cellOf, allGlobal access member]
        simp
      rw [applied_at, toCell, combined, read]
    rw [Atomicity.withGlobal, cells]

end Spaces

/-! ## Warp accesses that return -/

section WarpAccess

variable {α β : Type}
variable {latencyOf : Nat → MemoryM (Nat × Nat)}
variable {onShared : Nat → β → MemoryM (α × Nat)}
variable {onGlobal : Nat → β → MemoryM α}
variable {accesses : List (Nat × β)}
variable {memory middle after : MemorySystem}

/-- Accesses in one space are not rejected. -/
theorem notMixed_of_space
    {shared : Bool}
    {first : Nat}
    {rest : List Nat}
    (addresses : accesses.map Prod.fst = first :: rest)
    (space : ∀ access ∈ accesses, isShared access.1 = shared) :
    isShared first = shared ∧
      ((first :: rest).any fun address =>
        isShared address != isShared first) = false := by
  have everywhere :
      ∀ address ∈ first :: rest, isShared address = shared := by
    rw [← addresses]
    intro address member
    obtain ⟨access, isAccess, rfl⟩ := List.mem_map.mp member
    exact space access isAccess
  have isFirst := everywhere first List.mem_cons_self
  refine ⟨isFirst, ?_⟩
  rw [List.any_eq_false]
  intro address member
  rw [everywhere address member, isFirst, bne_self_eq_false]
  exact Bool.false_ne_true

/-- A warp access to shared memory returns when its accesses do. -/
theorem warpAccess_shared
    (space : ∀ access ∈ accesses, isShared access.1 = true)
    {values : List α}
    {latency : Nat}
    (performed :
      sharedAccesses onShared accesses 0 memory =
        .ok (values, latency) after) :
    ∃ timing,
      warpAccess latencyOf onShared onGlobal accesses memory =
        .ok (values, timing) after := by
  unfold warpAccess
  cases addresses : accesses.map Prod.fst with
  | nil =>
      obtain rfl := List.map_eq_nil_iff.mp addresses
      cases performed
      exact ⟨_, rfl⟩
  | cons first rest =>
      obtain ⟨shared, oneSpace⟩ := notMixed_of_space addresses space
      dsimp only
      rw [oneSpace, if_neg Bool.false_ne_true, if_pos shared]
      apply Exists.intro
      refine state_bind_ok.mpr ⟨memory, memory, rfl, ?_⟩
      exact state_bind_ok.mpr ⟨(values, latency), after, performed, rfl⟩

/-- A warp access to global memory returns when its lines and accesses do. -/
theorem warpAccess_global
    (space : ∀ access ∈ accesses, isShared access.1 = false)
    {charged : Nat × Nat}
    (charges :
      chargeTransactions latencyOf
          (coalesce (accesses.map Prod.fst) memory.l1Cache.lineSize) 1 0
          memory =
        .ok charged middle)
    {values : List α}
    (performed :
      globalAccesses onGlobal accesses middle = .ok values after) :
    ∃ timing,
      warpAccess latencyOf onShared onGlobal accesses memory =
        .ok (values, timing) after := by
  unfold warpAccess
  cases addresses : accesses.map Prod.fst with
  | nil =>
      obtain rfl := List.map_eq_nil_iff.mp addresses
      have noLines :
          coalesce (([] : List (Nat × β)).map Prod.fst)
            memory.l1Cache.lineSize = [] := by
        unfold coalesce
        split <;> rfl
      rw [noLines] at charges
      cases charges
      cases performed
      exact ⟨_, rfl⟩
  | cons first rest =>
      obtain ⟨isGlobal, oneSpace⟩ := notMixed_of_space addresses space
      rw [addresses] at charges
      dsimp only
      rw [oneSpace, if_neg Bool.false_ne_true, isGlobal,
        if_neg Bool.false_ne_true]
      apply Exists.intro
      refine state_bind_ok.mpr ⟨memory, memory, rfl, ?_⟩
      refine state_bind_ok.mpr ⟨charged, middle, charges, ?_⟩
      exact state_bind_ok.mpr ⟨values, after, performed, rfl⟩

end WarpAccess

/-- The accesses of a warp are all shared, or all global. -/
theorem Addressable.space
    {memory : MemorySystem}
    {addresses : List Nat}
    (addressable : Addressable memory addresses) :
    (∀ address ∈ addresses,
        isShared address = true ∧
          address - sharedMemBase < memory.sharedMemory.size) ∨
      ∀ address ∈ addresses,
        isShared address = false ∧
          address < memory.globalMemory.size := by
  have inBounds := addressable.inBounds
  unfold cellOf at inBounds
  by_cases shared : ∃ address ∈ addresses, isShared address = true
  · obtain ⟨first, isFirst, firstShared⟩ := shared
    refine Or.inl fun address member => ?_
    have isShared :=
      (addressable.oneSpace address member first isFirst).trans firstShared
    have inside := inBounds address member
    rw [if_pos isShared] at inside
    exact ⟨isShared, inside⟩
  · refine Or.inr fun address member => ?_
    have isGlobal : isShared address = false := by
      rw [← Bool.not_eq_true]
      exact fun isShared => shared ⟨address, member, isShared⟩
    have inside := inBounds address member
    rw [isGlobal, if_neg Bool.false_ne_true] at inside
    exact ⟨isGlobal, inside⟩

section Returns

variable {memory : MemorySystem}

/-- Writes of a warp that is addressable return, and are all done. -/
theorem warpAccess_written
    {combine : Word → Word → Word}
    {onShared : Nat → Word → MemoryM (Unit × Nat)}
    {onGlobal : Nat → Word → MemoryM Unit}
    (writesShared : Atomicity.WritesShared combine onShared)
    (writesGlobal : Atomicity.WritesGlobal combine onGlobal)
    (inUse : memory.InUse)
    {accesses : List (Nat × Word)}
    (addressable : Addressable memory (accesses.map Prod.fst)) :
    ∃ result after,
      warpAccess writeLatency onShared onGlobal accesses memory =
          .ok result after ∧
        after.InUse ∧ Written combine accesses memory after := by
  rcases addressable.space with shared | isGlobal
  · have inside :
        ∀ entry ∈ accesses.map Atomicity.offset,
          entry.1 < memory.sharedMemory.size := by
      intro entry member
      obtain ⟨access, isAccess, rfl⟩ := List.mem_map.mp member
      exact (shared _ (List.mem_map_of_mem isAccess)).2
    have space :
        ∀ access ∈ accesses, isShared access.1 = true :=
      fun access member => (shared _ (List.mem_map_of_mem member)).1
    obtain ⟨⟨values, latency⟩, performed⟩ :=
      Atomicity.sharedAccesses_inside writesShared inside 0
    obtain ⟨timing, ran⟩ :=
      @warpAccess_shared _ _ writeLatency _ onGlobal _ _ _ space _ _
        performed
    exact
      ⟨_, _, ran, ⟨inUse.l1Cache, inUse.l2Cache⟩,
        written_shared space rfl⟩
  · have space :
        ∀ access ∈ accesses, isShared access.1 = false :=
      fun access member => (isGlobal _ (List.mem_map_of_mem member)).1
    obtain ⟨charged, middle, charges, middleInUse⟩ :=
      chargeTransactions_returns writeLatency_returns
        (coalesce (accesses.map Prod.fst) memory.l1Cache.lineSize) 1 0
        memory inUse
    obtain ⟨sameShared, sameGlobal⟩ :=
      KeepsData.of_keeps
        (chargeTransactions_keeps writeLatency_keeps _ _ _) _ _ _ charges
    have inside :
        ∀ access ∈ accesses, access.1 < middle.globalMemory.size := by
      intro access member
      rw [sameGlobal]
      exact (isGlobal _ (List.mem_map_of_mem member)).2
    obtain ⟨values, performed⟩ :=
      Atomicity.globalAccesses_inside writesGlobal inside
    obtain ⟨timing, ran⟩ :=
      @warpAccess_global _ _ _ onShared _ _ _ _ _ space _ charges _
        performed
    refine
      ⟨_, _, ran, ⟨middleInUse.l1Cache, middleInUse.l2Cache⟩, ?_⟩
    have written :=
      @written_global combine _ middle _ space rfl
    have sameRead : middle.read = memory.read :=
      read_of_contents (contents_of_fields sameShared sameGlobal)
    obtain ⟨afterShared, afterGlobal⟩ := written
    unfold combined at afterShared afterGlobal
    rw [sameRead] at afterShared afterGlobal
    exact ⟨afterShared.trans (by rw [sameShared]; rfl),
      afterGlobal.trans (by rw [sameGlobal]; rfl)⟩

/-! ## Loads -/

/-- Loads of shared cells in bounds return the cells. -/
theorem sharedAccesses_loads
    {addresses : List Nat}
    (inside :
      ∀ address ∈ addresses,
        isShared address = true ∧
          address - sharedMemBase < memory.sharedMemory.size)
    (maxLatency : Nat) :
    ∃ latency,
      sharedAccesses (fun address (_ : Unit) => sharedLoad address)
          (addresses.map fun address => (address, ())) maxLatency memory =
        .ok (addresses.map fun address => memory.read (cellOf address),
          latency) memory := by
  induction addresses generalizing maxLatency with
  | nil => exact ⟨_, rfl⟩
  | cons address rest inductionHypothesis =>
      obtain ⟨shared, inBounds⟩ := inside address List.mem_cons_self
      obtain ⟨latency, others⟩ :=
        inductionHypothesis
          (fun other member => inside other (List.mem_cons_of_mem _ member))
          (max maxLatency memory.config.sharedMemoryLatency)
      have now :
          sharedLoad (address - sharedMemBase) memory =
            .ok (memory.read (cellOf address),
              memory.config.sharedMemoryLatency) memory := by
        rw [cellOf, if_pos shared]
        refine state_bind_ok.mpr ⟨memory, memory, rfl, ?_⟩
        refine state_bind_ok.mpr ⟨_, memory, ?_, rfl⟩
        rw [SharedMemory.load, if_pos inBounds]
        rfl
      refine ⟨latency, ?_⟩
      refine state_bind_ok.mpr ⟨_, memory, now, ?_⟩
      exact state_bind_ok.mpr ⟨_, memory, others, rfl⟩

/-- The load of a global cell in bounds returns the cell. -/
theorem globalLoad_inside
    {address : Nat}
    (isGlobal : isShared address = false)
    (inBounds : address < memory.globalMemory.size) :
    globalLoad address memory =
      .ok (memory.read (cellOf address)) memory := by
  rw [cellOf, isGlobal, if_neg Bool.false_ne_true]
  refine state_bind_ok.mpr ⟨memory, memory, rfl, ?_⟩
  rw [GlobalMemory.load, if_pos inBounds]
  rfl

/-- Loads of global cells in bounds return the cells. -/
theorem globalAccesses_loads
    {addresses : List Nat}
    (inside :
      ∀ address ∈ addresses,
        isShared address = false ∧ address < memory.globalMemory.size) :
    globalAccesses (fun address (_ : Unit) => globalLoad address)
        (addresses.map fun address => (address, ())) memory =
      .ok (addresses.map fun address => memory.read (cellOf address))
        memory := by
  induction addresses with
  | nil => rfl
  | cons address rest inductionHypothesis =>
      obtain ⟨isGlobal, inBounds⟩ := inside address List.mem_cons_self
      have others :=
        inductionHypothesis fun other member =>
          inside other (List.mem_cons_of_mem _ member)
      refine
        state_bind_ok.mpr
          ⟨_, memory, globalLoad_inside isGlobal inBounds, ?_⟩
      exact state_bind_ok.mpr ⟨_, memory, others, rfl⟩

/-- A warp load that is addressable returns the cells of its addresses. -/
theorem warpLoad_returns
    (inUse : memory.InUse)
    {addresses : List Nat}
    (addressable : Addressable memory addresses) :
    ∃ loaded after,
      warpLoad addresses memory = .ok loaded after ∧
        after.InUse ∧ contents after = contents memory ∧
          loaded.1 =
            addresses.map fun address => memory.read (cellOf address) := by
  have ofAccess
      {shared : Bool}
      (space : ∀ address ∈ addresses, isShared address = shared) :
      ∀ access ∈ addresses.map fun address => (address, ()),
        isShared access.1 = shared := by
    intro access member
    obtain ⟨address, isAddress, rfl⟩ := List.mem_map.mp member
    exact space address isAddress
  rcases addressable.space with shared | isGlobal
  · obtain ⟨latency, performed⟩ := sharedAccesses_loads shared 0
    obtain ⟨timing, ran⟩ :=
      @warpAccess_shared _ _ readLatency _
        (fun address _ => globalLoad address) _ _ _
        (ofAccess fun address member => (shared address member).1) _ _
        performed
    exact ⟨_, memory, ran, inUse, rfl, rfl⟩
  · obtain ⟨charged, middle, charges, middleInUse⟩ :=
      chargeTransactions_returns readLatency_returns
        (coalesce ((addresses.map fun address => (address, ())).map
          Prod.fst) memory.l1Cache.lineSize) 1 0 memory inUse
    obtain ⟨sameShared, sameGlobal⟩ :=
      KeepsData.of_keeps
        (chargeTransactions_keeps readLatency_keeps _ _ _) _ _ _ charges
    have sameContents := contents_of_fields sameShared sameGlobal
    have performed :=
      @globalAccesses_loads middle addresses fun address member => by
        rw [sameGlobal]
        exact isGlobal address member
    rw [read_of_contents sameContents] at performed
    obtain ⟨timing, ran⟩ :=
      @warpAccess_global _ _ _ (fun address _ => sharedLoad address) _ _ _
        _ _ (ofAccess fun address member => (isGlobal address member).1) _
        charges _ performed
    exact ⟨_, middle, ran, middleInUse, sameContents, rfl⟩

/-- A scalar load in bounds returns the cell of its address. -/
theorem load_returns
    (inUse : memory.InUse)
    {address : Nat}
    (hasCell : memory.HasCell (cellOf address)) :
    ∃ latency after,
      load address memory =
          .ok (memory.read (cellOf address), latency) after ∧
        after.InUse ∧ contents after = contents memory := by
  have addressable : Addressable memory [address] := by
    refine ⟨fun first isFirst second isSecond => ?_, fun other member => ?_⟩
    · rw [List.mem_singleton.mp isFirst, List.mem_singleton.mp isSecond]
    · rwa [List.mem_singleton.mp member]
  unfold load
  rcases addressable.space with shared | isGlobal
  · obtain ⟨isShared, inBounds⟩ := shared address List.mem_cons_self
    rw [if_pos (of_decide_eq_true isShared)]
    refine ⟨memory.config.sharedMemoryLatency, memory, ?_, inUse, rfl⟩
    refine state_bind_ok.mpr ⟨memory, memory, rfl, ?_⟩
    refine state_bind_ok.mpr ⟨_, memory, ?_, rfl⟩
    rw [SharedMemory.load, if_pos inBounds, cellOf, if_pos isShared]
    rfl
  · obtain ⟨isGlobal, inBounds⟩ := isGlobal address List.mem_cons_self
    rw [if_neg (of_decide_eq_false isGlobal)]
    obtain ⟨⟨latency, dirty⟩, middle, charges, middleInUse⟩ :=
      readLatency_returns address memory inUse
    have sameContents := (readLatency_keeps address).of_ok charges
    have sameGlobal := congrArg Prod.snd sameContents
    change middle.globalMemory = memory.globalMemory at sameGlobal
    have loaded :=
      @globalLoad_inside middle address isGlobal (by rwa [sameGlobal])
    rw [read_of_contents sameContents] at loaded
    refine ⟨latency, middle, ?_, middleInUse, sameContents⟩
    refine state_bind_ok.mpr ⟨_, middle, charges, ?_⟩
    exact state_bind_ok.mpr ⟨_, middle, loaded, rfl⟩

end Returns

/-! ## Stores -/

/-- Different addresses name different cells. -/
theorem cellOf_injective : Function.Injective cellOf := by
  intro first second same
  unfold cellOf at same
  cases firstSpace : isShared first with
  | true =>
      cases secondSpace : isShared second with
      | true =>
          rw [firstSpace, secondSpace, if_pos rfl, if_pos rfl,
            Cell.shared.injEq] at same
          have firstAbove := of_decide_eq_true firstSpace
          have secondAbove := of_decide_eq_true secondSpace
          omega
      | false => simp [firstSpace, secondSpace] at same
  | false =>
      cases secondSpace : isShared second with
      | true => simp [firstSpace, secondSpace] at same
      | false => simpa [firstSpace, secondSpace] using same

section Combined

variable {combine : Word → Word → Word}
variable {accesses : List (Nat × Word)}
variable {memory after : MemorySystem}
variable {cell : Cell}

/-- Cells read after writes. -/
theorem Written.read_after
    (written : Written combine accesses memory after)
    (cell : Cell) :
    after.read cell = combined combine accesses memory cell := by
  cases cell with
  | shared offset => rw [read, written.shared]
  | global address => rw [read, written.global]

/-- Writes leave the sizes of the memories alone. -/
theorem Written.addressable
    (written : Written combine accesses memory after)
    {addresses : List Nat}
    (addressable : Addressable memory addresses) :
    Addressable after addresses := by
  refine ⟨addressable.oneSpace, fun address member => ?_⟩
  have inBounds := addressable.inBounds address member
  unfold HasCell at inBounds ⊢
  rwa [written.shared, written.global]

/-- A cell that is not accessed keeps its word. -/
theorem combined_of_none
    (none : ∀ access ∈ accesses, cellOf access.1 ≠ cell) :
    combined combine accesses memory cell = memory.read cell := by
  have noAccess :
      (accesses.filter fun access => cellOf access.1 = cell) = [] := by
    rw [List.filter_eq_nil_iff]
    intro access member
    rw [decide_eq_true_iff]
    exact none access member
  rw [combined, noAccess, List.map_nil, List.foldl_nil]

/-- The last access to a cell comes on top of the earlier ones. -/
theorem combined_concat
    (combine : Word → Word → Word)
    (earlier : List (Nat × Word))
    (last : Nat × Word)
    (memory : MemorySystem)
    (cell : Cell) :
    combined combine (earlier ++ [last]) memory cell =
      if cellOf last.1 = cell then
        combine (combined combine earlier memory cell) last.2
      else
        combined combine earlier memory cell := by
  unfold combined
  rw [List.filter_append, List.map_append, List.foldl_append,
    List.filter_singleton]
  by_cases here : cellOf last.1 = cell
  · rw [if_pos here, decide_eq_true here, cond_true]
    rfl
  · rw [if_neg here, decide_eq_false here, cond_false]
    rfl

/-- A cell that is stored to holds the value of the last store to it. -/
theorem combined_last
    (memory : MemorySystem)
    (stored : ∃ access ∈ accesses, cellOf access.1 = cell) :
    ∃ (position : Nat) (last : Nat × Word),
      accesses[position]? = some last ∧ cellOf last.1 = cell ∧
        (∀ other > position,
          ∀ later : Nat × Word,
            accesses[other]? = some later → cellOf later.1 ≠ cell) ∧
        combined (fun _ value => value) accesses memory cell = last.2 := by
  induction accesses using List.reverseRecOn with
  | nil =>
      obtain ⟨access, member, _⟩ := stored
      cases member
  | append_singleton earlier final inductionHypothesis =>
      rw [combined_concat]
      by_cases here : cellOf final.1 = cell
      · refine
          ⟨earlier.length, final, List.getElem?_concat_length, here,
            fun other after later found => ?_, if_pos here⟩
        obtain ⟨inside, _⟩ := List.getElem?_eq_some_iff.mp found
        rw [List.length_append, List.length_singleton] at inside
        omega
      · have someEarlier :
            ∃ access ∈ earlier, cellOf access.1 = cell := by
          obtain ⟨access, member, isCell⟩ := stored
          rcases List.mem_append.mp member with isEarlier | isFinal
          · exact ⟨access, isEarlier, isCell⟩
          · obtain rfl := List.mem_singleton.mp isFinal
            exact (here isCell).elim
        obtain ⟨position, last, found, isCell, isLast, holds⟩ :=
          inductionHypothesis someEarlier
        obtain ⟨inside, _⟩ := List.getElem?_eq_some_iff.mp found
        refine
          ⟨position, last, ?_, isCell, fun other after later foundLater => ?_,
            (if_neg here).trans holds⟩
        · rw [List.getElem?_append_left inside, found]
        · rcases Nat.lt_or_ge other earlier.length with inEarlier | beyond
          · rw [List.getElem?_append_left inEarlier] at foundLater
            exact isLast other after later foundLater
          · rw [List.getElem?_append_right beyond,
              List.getElem?_singleton] at foundLater
            split at foundLater
            · cases foundLater
              exact here
            · cases foundLater

end Combined

/-! ## Additions -/

/-- A cell that is added to gains the sum of the values. -/
theorem combined_add
    (accesses : List (Nat × Word))
    (memory : MemorySystem)
    (cell : Cell) :
    combined (· + ·) accesses memory cell =
      memory.read cell +
        ((accesses.filter fun access => cellOf access.1 = cell).map
          Prod.snd).sum := by
  unfold combined
  generalize memory.read cell = word
  induction (accesses.filter fun access => cellOf access.1 = cell).map
      Prod.snd generalizing word with
  | nil => rw [List.foldl_nil, List.sum_nil, add_zero]
  | cons value rest inductionHypothesis =>
      rw [List.foldl_cons, List.sum_cons, inductionHypothesis, add_assoc]

/-- What was written decides the contents. -/
theorem Written.contents_eq
    {combine : Word → Word → Word}
    {accesses others : List (Nat × Word)}
    {memory after another : MemorySystem}
    (written : Written combine accesses memory after)
    (otherWritten : Written combine others memory another)
    (same :
      ∀ cell,
        combined combine others memory cell =
          combined combine accesses memory cell) :
    contents another = contents after := by
  refine contents_of_fields ?_ ?_
  · rw [written.shared, otherWritten.shared]
    simp only [same]
  · rw [written.global, otherWritten.global]
    simp only [same]

/-- Writes one after the other are writes in a row. -/
theorem Written.append
    {combine : Word → Word → Word}
    {first second : List (Nat × Word)}
    {memory middle after : MemorySystem}
    (earlier : Written combine first memory middle)
    (later : Written combine second middle after) :
    Written combine (first ++ second) memory after := by
  have cells
      (cell : Cell) :
      combined combine second middle cell =
        combined combine (first ++ second) memory cell := by
    unfold combined
    rw [earlier.read_after, combined, List.filter_append, List.map_append,
      List.foldl_append]
  constructor
  · rw [later.shared, earlier.shared]
    simp only [cells]
  · rw [later.global, earlier.global]
    simp only [cells]

/-- Three lanes, two of them with one address. -/
def twoAtOne : List (Nat × Word) :=
  [(3, 7), (5, 8), (3, 9)]

theorem minimal_inUse (cells : Nat) : (minimal cells).InUse :=
  ⟨.built (rfl : Cache.new 1 1 1 "LRU" (fun _ _ => 0) = .ok _),
    .built (rfl : Cache.new 1 1 1 "LRU" (fun _ _ => 0) = .ok _)⟩

theorem twoAtOne_addressable :
    Addressable (minimal 8) (twoAtOne.map Prod.fst) := by
  constructor
  · decide
  · intro address member
    have isOne : address = 3 ∨ address = 5 ∨ address = 3 := by
      simpa [twoAtOne] using member
    rcases isOne with rfl | rfl | rfl
    · exact (by decide : 3 < 8)
    · exact (by decide : 5 < 8)
    · exact (by decide : 3 < 8)

section Warps

variable {memory : MemorySystem}
variable {accesses : List (Nat × Word)}

/-- A warp store that is addressable stores its values in lane order. -/
theorem warpStore_returns
    (inUse : memory.InUse)
    (addressable : Addressable memory (accesses.map Prod.fst)) :
    ∃ stored after,
      warpStore accesses memory = .ok stored after ∧
        after.InUse ∧
          Written (fun _ value => value) accesses memory after := by
  obtain ⟨result, after, ran, afterInUse, written⟩ :=
    warpAccess_written Atomicity.sharedStore_writes
      Atomicity.globalStore_writes inUse addressable
  exact
    ⟨result.2, after, state_bind_ok.mpr ⟨result, after, ran, rfl⟩,
      afterInUse, written⟩

/-- A warp atomic addition that is addressable adds its values. -/
theorem warpAtomicAdd_returns
    (inUse : memory.InUse)
    (addressable : Addressable memory (accesses.map Prod.fst)) :
    ∃ added after,
      warpAtomicAdd accesses memory = .ok added after ∧
        after.InUse ∧ Written (· + ·) accesses memory after := by
  obtain ⟨result, after, ran, afterInUse, written⟩ :=
    warpAccess_written Atomicity.sharedAdd_writes
      Atomicity.globalAdd_writes inUse addressable
  exact
    ⟨result.2, after, state_bind_ok.mpr ⟨result, after, ran, rfl⟩,
      afterInUse, written⟩

/--
A warp store and a warp load of the same addresses return at every lane what the
last lane with its address stored, and so does every scalar load.
-/
theorem warpStore_roundTrip
    (inUse : memory.InUse)
    (addressable : Addressable memory (accesses.map Prod.fst)) :
    ∃ stored middle loaded after,
      warpStore accesses memory = .ok stored middle ∧
        warpLoad (accesses.map Prod.fst) middle = .ok loaded after ∧
        middle.InUse ∧ after.InUse ∧
        contents middle = contents after ∧
        loaded.1.length = accesses.length ∧
        (∀ (lane : Nat) (access : Nat × Word),
          accesses[lane]? = some access →
          ∃ (position : Nat) (last : Nat × Word),
            accesses[position]? = some last ∧ last.1 = access.1 ∧
              (∀ other > position,
                ∀ later : Nat × Word,
                  accesses[other]? = some later → later.1 ≠ access.1) ∧
              loaded.1[lane]? = some last.2 ∧
              ∀ state : MemorySystem,
                state.InUse →
                contents state = contents after →
                ∃ latency next,
                  load access.1 state = .ok (last.2, latency) next) ∧
        ∀ cell,
          (∀ access ∈ accesses, cellOf access.1 ≠ cell) →
          middle.read cell = memory.read cell ∧
            after.read cell = memory.read cell := by
  obtain ⟨stored, middle, stores, middleInUse, written⟩ :=
    warpStore_returns inUse addressable
  have stillAddressable := written.addressable addressable
  obtain ⟨loaded, after, loads, afterInUse, sameContents, values⟩ :=
    warpLoad_returns middleInUse stillAddressable
  have sameRead := read_of_contents sameContents
  refine
    ⟨stored, middle, loaded, after, stores, loads, middleInUse, afterInUse,
      sameContents.symm, ?_, fun lane access found => ?_,
      fun cell none => ?_⟩
  · rw [values, List.length_map, List.length_map]
  · have member := List.mem_of_getElem? found
    obtain ⟨position, last, isLast, sameCell, noLater, holds⟩ :=
      combined_last memory ⟨access, member, rfl⟩
    have sameAddress := cellOf_injective sameCell
    rw [← written.read_after] at holds
    refine
      ⟨position, last, isLast, sameAddress,
        fun other later another isOther same =>
          noLater other later another isOther (congrArg cellOf same),
        ?_, fun state stateInUse stateContents => ?_⟩
    · rw [values, List.getElem?_map, List.getElem?_map, found]
      exact congrArg some holds
    · have toMiddle := stateContents.trans sameContents
      have inBounds :=
        (addressable_of_contents toMiddle stillAddressable).inBounds
          access.1 (List.mem_map_of_mem member)
      obtain ⟨latency, next, loadsOne, _⟩ := load_returns stateInUse inBounds
      rw [read_of_contents toMiddle, holds] at loadsOne
      exact ⟨latency, next, loadsOne⟩
  · rw [sameRead, written.read_after]
    exact ⟨combined_of_none none, combined_of_none none⟩

/-- The last of two stores to one address is what both lanes load. -/
theorem warpStore_roundTrip_twoAtOne :
    ∃ stored middle loaded after,
      warpStore twoAtOne (minimal 8) = .ok stored middle ∧
        warpLoad (twoAtOne.map Prod.fst) middle = .ok loaded after ∧
        loaded.1[0]? = some 9 := by
  obtain ⟨stored, middle, loaded, after, stores, loads, _, _, _, _, lanes,
      _⟩ :=
    warpStore_roundTrip (minimal_inUse 8) twoAtOne_addressable
  obtain ⟨position, last, found, isAddress, noLater, holds, _⟩ :=
    lanes 0 (3, 7) rfl
  refine ⟨stored, middle, loaded, after, stores, loads, ?_⟩
  have atEnd : position = 2 := by
    obtain ⟨inside, _⟩ := List.getElem?_eq_some_iff.mp found
    have below : position < 3 := inside
    by_contra notLast
    exact noLater 2 (by omega) (3, 9) rfl rfl
  subst atEnd
  cases found
  exact holds

/--
An atomic addition of a warp adds to every cell the values of all lanes with its
address; neither the order of the lanes nor a split into two matters.
-/
theorem warpAtomicAdd_losesNone
    (inUse : memory.InUse)
    (addressable : Addressable memory (accesses.map Prod.fst)) :
    ∃ added after,
      warpAtomicAdd accesses memory = .ok added after ∧
        (∀ cell,
          after.read cell =
            memory.read cell +
              ((accesses.filter fun access =>
                cellOf access.1 = cell).map Prod.snd).sum) ∧
        (∀ cell,
          (∀ access ∈ accesses, cellOf access.1 ≠ cell) →
          after.read cell = memory.read cell) ∧
        (∀ permuted : List (Nat × Word),
          permuted.Perm accesses →
          ∃ result other,
            warpAtomicAdd permuted memory = .ok result other ∧
              contents other = contents after) ∧
        ∀ first second : List (Nat × Word),
          accesses = first ++ second →
          ∃ result middle laterResult other,
            warpAtomicAdd first memory = .ok result middle ∧
              warpAtomicAdd second middle = .ok laterResult other ∧
              contents other = contents after := by
  obtain ⟨added, after, adds, _, written⟩ :=
    warpAtomicAdd_returns inUse addressable
  have part
      {addresses : List Nat}
      (isPart : addresses ⊆ accesses.map Prod.fst) :
      Addressable memory addresses :=
    ⟨fun address member other otherMember =>
        addressable.oneSpace address (isPart member) other
          (isPart otherMember),
      fun address member => addressable.inBounds address (isPart member)⟩
  refine
    ⟨added, after, adds, fun cell => ?_, fun cell none => ?_,
      fun permuted isPermuted => ?_, fun first second shape => ?_⟩
  · rw [written.read_after, combined_add]
  · rw [written.read_after, combined_of_none none]
  · obtain ⟨result, other, ran, _, otherWritten⟩ :=
      warpAtomicAdd_returns inUse
        (part (isPermuted.map Prod.fst).subset)
    refine
      ⟨result, other, ran,
        written.contents_eq otherWritten fun cell => ?_⟩
    rw [combined_add, combined_add]
    congr 1
    exact ((isPermuted.filter _).map Prod.snd).sum_eq
  · subst shape
    obtain ⟨result, middle, ran, middleInUse, earlier⟩ :=
      @warpAtomicAdd_returns memory first inUse
        (part fun address member => by
          rw [List.map_append]
          exact List.mem_append_left _ member)
    obtain ⟨laterResult, other, ranLater, _, later⟩ :=
      @warpAtomicAdd_returns middle second middleInUse
        (earlier.addressable (part fun address member => by
          rw [List.map_append]
          exact List.mem_append_right _ member))
    exact
      ⟨result, middle, laterResult, other, ran, ranLater,
        written.contents_eq (earlier.append later) fun _ => rfl⟩

/-- Two additions to one address both count. -/
theorem warpAtomicAdd_losesNone_twoAtOne :
    ∃ added after,
      warpAtomicAdd twoAtOne (minimal 8) = .ok added after ∧
        after.read (.global 3) = 16 := by
  obtain ⟨added, after, adds, cells, _⟩ :=
    warpAtomicAdd_losesNone (minimal_inUse 8) twoAtOne_addressable
  exact ⟨added, after, adds, cells (.global 3)⟩

end Warps

end MemorySystem

end SimSm
