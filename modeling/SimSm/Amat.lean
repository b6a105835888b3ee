import Mathlib.Data.Rat.Cast.Defs
import Mathlib.Tactic.FieldSimp
import Mathlib.Tactic.Ring
import SimSm.Config
import SimSm.Library.Pointwise
import SimSm.Traffic

namespace SimSm

/-!
# The analytical average memory access time

Two formulas multiply averaged rates to a mean latency: the one of the sweep
engine, over the caches of all multiprocessors, and the one of a memory system.
Over exact rationals both are the measured mean, because every L1 miss is an L2
access and every dirty eviction is charged one writeback.
-/

/-- The AMAT that the sweep engine computes from aggregated counts. -/
def SweepEngine.amat
    (config : SystemConfig)
    (l1Hits l1Misses l2Hits l2Misses dirtyEvicts : Nat) : ℚ :=
  let l1MissRate : ℚ :=
    if 0 < l1Hits + l1Misses then
      l1Misses / (l1Hits + l1Misses : Nat)
    else
      0
  let l2MissRate : ℚ :=
    if 0 < l2Hits + l2Misses then
      l2Misses / (l2Hits + l2Misses : Nat)
    else
      0
  let amat : ℚ :=
    config.l1Latency +
      l1MissRate *
        (config.l2Latency + l2MissRate * config.globalMemoryLatency)
  if 0 < l1Hits + l1Misses then
    amat +
      dirtyEvicts / (l1Hits + l1Misses : Nat) * config.writebackLatency
  else
    amat

/-- The AMAT that a memory system computes from its own caches. -/
def MemorySystem.computeAmat (memory : MemorySystem) : ℚ :=
  let l1Stats := memory.l1Cache.stats
  let l2Stats := memory.l2Cache.stats
  let l1Accesses := l1Stats.hits + l1Stats.misses
  let l2Accesses := l2Stats.hits + l2Stats.misses
  let l1MissRate : ℚ :=
    if 0 < l1Accesses then l1Stats.misses / l1Accesses else 0
  let l2MissRate : ℚ :=
    if 0 < l2Accesses then l2Stats.misses / l2Accesses else 0
  let l1DirtyEvictionRate : ℚ :=
    if 0 < l1Accesses then l1Stats.dirtyEvictions / l1Accesses else 0
  let missPenaltyL2 : ℚ := memory.config.globalMemoryLatency
  let missPenaltyL1 : ℚ :=
    memory.config.l2Latency + l2MissRate * missPenaltyL2
  memory.config.l1Latency + l1MissRate * missPenaltyL1 +
    l1DirtyEvictionRate * memory.config.writebackLatency

namespace Amat

/-! ## The rates are exact -/

/-- The mean latency of a tally, as both formulas compute it. -/
def ofTally (config : MemoryAccessConfig) (tally : Tally) : ℚ :=
  config.l1Latency +
    (tally.misses : ℚ) / tally.accesses *
      (config.l2Latency +
        (if 0 < tally.misses then
            (tally.l2Misses : ℚ) / tally.misses
          else
            0) *
          config.globalMemoryLatency) +
    (tally.dirtyEvictions : ℚ) / tally.accesses * config.writebackLatency

/-- The mean latency times the number of accesses is their cost. -/
theorem ofTally_mul
    {config : MemoryAccessConfig}
    {tally : Tally}
    (some : 0 < tally.accesses)
    (l2Misses : tally.l2Misses ≤ tally.misses) :
    ofTally config tally * tally.accesses = tally.latency config := by
  have accesses : (tally.accesses : ℚ) ≠ 0 :=
    Nat.cast_ne_zero.mpr some.ne'
  have l2Rate :
      (tally.misses : ℚ) *
          (if 0 < tally.misses then
            (tally.l2Misses : ℚ) / tally.misses
          else
            0) =
        tally.l2Misses := by
    by_cases missed : 0 < tally.misses
    · have misses : (tally.misses : ℚ) ≠ 0 :=
        Nat.cast_ne_zero.mpr missed.ne'
      rw [if_pos missed, mul_div_cancel₀ _ misses]
    · have none : tally.misses = 0 := Nat.eq_zero_of_not_pos missed
      rw [none, Nat.le_zero] at l2Misses
      rw [none, l2Misses, if_neg (Nat.lt_irrefl 0), mul_zero,
        Nat.cast_zero]
  rw [ofTally, Tally.latency]
  push_cast
  generalize
    (if 0 < tally.misses then
      (tally.l2Misses : ℚ) / tally.misses
    else
      0) = rate at l2Rate ⊢
  rw [← l2Rate]
  field_simp
  ring

/-- The statistics of two levels of caches, as a tally of their accesses. -/
def tallyOf (l1Hits l1Misses l2Misses dirtyEvictions : Nat) : Tally :=
  ⟨l1Hits + l1Misses, l1Misses, l2Misses, dirtyEvictions⟩

/-- The sweep engine's formula is the mean latency of the aggregated counts. -/
theorem sweepEngine_amat_eq
    {config : SystemConfig}
    {l1Hits l1Misses l2Hits l2Misses dirtyEvicts : Nat}
    (some : 0 < l1Hits + l1Misses)
    (fetched : l2Hits + l2Misses = l1Misses) :
    SweepEngine.amat config l1Hits l1Misses l2Hits l2Misses dirtyEvicts =
      ofTally config.memoryAccessConfig
        (tallyOf l1Hits l1Misses l2Misses dirtyEvicts) := by
  rw [SweepEngine.amat, fetched, if_pos some, if_pos some]
  rfl

/-- A memory system's formula is the mean latency of its own counts. -/
theorem computeAmat_eq
    {memory : MemorySystem}
    (some :
      0 < memory.l1Cache.stats.hits + memory.l1Cache.stats.misses)
    (fetched :
      memory.l2Cache.stats.hits + memory.l2Cache.stats.misses =
        memory.l1Cache.stats.misses) :
    memory.computeAmat =
      ofTally memory.config
        (tallyOf memory.l1Cache.stats.hits memory.l1Cache.stats.misses
          memory.l2Cache.stats.misses
          memory.l1Cache.stats.dirtyEvictions) := by
  rw [MemorySystem.computeAmat, fetched, if_pos some, if_pos some]
  rfl

end Amat

/-! ## Runs of memory operations -/

/-- A memory operation on global addresses. -/
inductive GlobalOperation where
  | load (address : Nat)
  | store (address : Nat) (value : Word)
  | warpLoad (addresses : List Nat)
  | warpStore (accesses : List (Nat × Word))
  | warpAtomicAdd (accesses : List (Nat × Word))

namespace GlobalOperation

open MemorySystem Outcome

/-- The addresses of an operation. -/
def addresses : GlobalOperation → List Nat
  | .load address => [address]
  | .store address _ => [address]
  | .warpLoad addresses => addresses
  | .warpStore accesses => accesses.map Prod.fst
  | .warpAtomicAdd accesses => accesses.map Prod.fst

/-- None of them is in shared memory. -/
def Global (operation : GlobalOperation) : Prop :=
  ∀ address ∈ operation.addresses, isShared address = false

/-- Perform the operation. -/
def perform : GlobalOperation → MemoryM Unit
  | .load address => discard (MemorySystem.load address)
  | .store address value => discard (MemorySystem.store address value)
  | .warpLoad addresses => discard (MemorySystem.warpLoad addresses)
  | .warpStore accesses => discard (MemorySystem.warpStore accesses)
  | .warpAtomicAdd accesses =>
      discard (MemorySystem.warpAtomicAdd accesses)

/-- What each `read_latency` or `write_latency` of the operation returns. -/
def latencies (memory : MemorySystem) : GlobalOperation → List Nat
  | .load address => lineLatencies readLatency [address] memory
  | .store address _ => lineLatencies writeLatency [address] memory
  | .warpLoad addresses =>
      lineLatencies readLatency
        (coalesce addresses memory.l1Cache.lineSize) memory
  | .warpStore accesses =>
      lineLatencies writeLatency
        (coalesce (accesses.map Prod.fst) memory.l1Cache.lineSize) memory
  | .warpAtomicAdd accesses =>
      lineLatencies writeLatency
        (coalesce (accesses.map Prod.fst) memory.l1Cache.lineSize) memory

/-- A discarded result does not matter to the state. -/
theorem discard_ok
    {computation : MemoryM α}
    {before after : MemorySystem}
    {value : Unit}
    (ran : discard computation before = .ok value after) :
    ∃ result, computation before = .ok result after := by
  unfold discard at ran
  change EStateM.map _ computation before = _ at ran
  unfold EStateM.map at ran
  cases shape : computation before with
  | error error state => simp only [shape, reduceCtorEq] at ran
  | ok result state =>
      simp only [shape, EStateM.Result.ok.injEq] at ran
      exact ⟨result, by rw [ran.2]⟩

/-- A scalar access and the data access after it serve one line. -/
theorem scalar_served
    {latencyOf : Nat → MemoryM (Nat × Nat)}
    (charges : ChargesLine latencyOf)
    {next : Nat × Nat → MemoryM α}
    (keeps : ∀ charged, KeepsCaches (next charged))
    {address : Nat}
    {before after : MemorySystem}
    {result : α}
    (ran : (latencyOf address >>= next) before = .ok result after) :
    ∃ tally,
      Served before after tally ∧
        tally.latency before.config =
          (lineLatencies latencyOf [address] before).sum := by
  obtain ⟨⟨latency, dirty⟩, middle, charged, later⟩ :=
    state_bind_ok.mp ran
  obtain ⟨tally, served, _, _, cost⟩ := charges _ _ _ _ _ charged
  obtain ⟨config, l1Cache, l2Cache⟩ := keeps _ _ _ _ later
  refine
    ⟨tally.and .none, served.trans (.of_sameCaches config l1Cache l2Cache),
      ?_⟩
  rw [Tally.latency_and, cost]
  simp [lineLatencies, charged, Tally.latency, Tally.none]

/-- A global operation costs what its latency functions return. -/
theorem perform_served
    {operation : GlobalOperation}
    (isGlobal : operation.Global)
    {before after : MemorySystem}
    {value : Unit}
    (ran : operation.perform before = .ok value after) :
    ∃ tally,
      Served before after tally ∧
        tally.latency before.config =
          (operation.latencies before).sum := by
  have noneShared : ¬ operation.addresses.any isShared = true := by
    intro anyShared
    obtain ⟨address, member, shared⟩ := List.any_eq_true.mp anyShared
    rw [isGlobal address member] at shared
    cases shared
  have ofWarp
      {latencyOf : Nat → MemoryM (Nat × Nat)}
      {result : WarpMemoryResult}
      (served :
        WarpServed latencyOf operation.addresses before result after) :
      ∃ tally,
        Served before after tally ∧
          tally.latency before.config =
            (lineLatencies latencyOf
              (coalesce operation.addresses before.l1Cache.lineSize)
              before).sum := by
    obtain ⟨tally, isServed, _, _, cost⟩ := served
    rw [accessLatencies, if_neg noneShared] at cost
    exact ⟨tally, isServed, cost⟩
  cases operation with
  | load address =>
      obtain ⟨result, loaded⟩ := discard_ok ran
      have notShared := isGlobal address (List.mem_singleton_self address)
      rw [isShared, decide_eq_false_iff_not] at notShared
      rw [MemorySystem.load, if_neg notShared] at loaded
      exact
        scalar_served readLatency_charges
          (fun _ => .bind (globalLoad_keeps address) fun _ => .pure _)
          loaded
  | store address word =>
      obtain ⟨result, stored⟩ := discard_ok ran
      have notShared := isGlobal address (List.mem_singleton_self address)
      rw [isShared, decide_eq_false_iff_not] at notShared
      rw [MemorySystem.store, if_neg notShared] at stored
      exact
        scalar_served writeLatency_charges
          (fun _ =>
            .bind (globalStore_keeps address word) fun _ => .pure _)
          stored
  | warpLoad addresses =>
      obtain ⟨⟨values, result⟩, loaded⟩ := discard_ok ran
      exact ofWarp (warpLoad_served loaded)
  | warpStore accesses =>
      obtain ⟨result, stored⟩ := discard_ok ran
      exact ofWarp (warpStore_served stored)
  | warpAtomicAdd accesses =>
      obtain ⟨result, added⟩ := discard_ok ran
      exact ofWarp (warpAtomicAdd_served added)

end GlobalOperation

/-! ## Multiprocessors that share the L2 cache -/

/-- The memories of some multiprocessors over one L2 cache. -/
structure Hierarchy where
  config : SystemConfig
  sms : List (SharedMemory × Cache)
  l2Cache : Cache
  globalMemory : GlobalMemory

namespace Hierarchy

/-- The memory system that a multiprocessor uses. -/
def memoryOf
    (hierarchy : Hierarchy)
    (sm : SharedMemory × Cache) :
    MemorySystem where
  sharedMemory := sm.1
  l1Cache := sm.2
  l2Cache := hierarchy.l2Cache
  globalMemory := hierarchy.globalMemory
  config := hierarchy.config.memoryAccessConfig

/-- The hierarchy after a multiprocessor used its memory system. -/
def update
    (hierarchy : Hierarchy)
    (index : Nat)
    (memory : MemorySystem) :
    Hierarchy :=
  { hierarchy with
    sms := hierarchy.sms.set index (memory.sharedMemory, memory.l1Cache)
    l2Cache := memory.l2Cache
    globalMemory := memory.globalMemory }

/-- A count of all L1 caches together. -/
def total (hierarchy : Hierarchy) (count : CacheStats → Nat) : Nat :=
  (hierarchy.sms.map fun sm => count sm.2.stats).sum

/-- All caches as they are built. -/
structure Fresh (hierarchy : Hierarchy) : Prop where
  l1Caches :
    ∀ sm ∈ hierarchy.sms,
      ∃ numSets associativity lineSize policyName rng,
        Cache.new numSets associativity lineSize policyName rng =
          .ok sm.2
  l2Cache :
    ∃ numSets associativity lineSize policyName rng,
      Cache.new numSets associativity lineSize policyName rng =
        .ok hierarchy.l2Cache

end Hierarchy

/-- A hierarchy and the sum of all latencies returned so far. -/
structure Measured where
  hierarchy : Hierarchy
  latency : Nat

namespace Measured

/-- One multiprocessor performs one operation on global addresses. -/
def Operates (before after : Measured) : Prop :=
  ∃ (index : Nat) (sm : SharedMemory × Cache)
      (operation : GlobalOperation) (memory : MemorySystem),
    before.hierarchy.sms[index]? = some sm ∧
      operation.Global ∧
      operation.perform (before.hierarchy.memoryOf sm) = .ok () memory ∧
      after =
        { hierarchy := before.hierarchy.update index memory
          latency :=
            before.latency +
              (operation.latencies (before.hierarchy.memoryOf sm)).sum }

/-- The accesses of all multiprocessors and what became of them. -/
def tally (measured : Measured) : Tally :=
  Amat.tallyOf (measured.hierarchy.total CacheStats.hits)
    (measured.hierarchy.total CacheStats.misses)
    measured.hierarchy.l2Cache.stats.misses
    (measured.hierarchy.total CacheStats.dirtyEvictions)

/-- The counts explain each other and the latency. -/
structure Balanced (measured : Measured) : Prop where
  accesses :
    ∀ sm ∈ measured.hierarchy.sms,
      sm.2.stats.hits + sm.2.stats.misses = sm.2.stats.accesses
  evictions :
    ∀ sm ∈ measured.hierarchy.sms,
      sm.2.stats.dirtyEvictions ≤ sm.2.stats.misses
  fetched :
    measured.hierarchy.l2Cache.stats.hits +
        measured.hierarchy.l2Cache.stats.misses =
      measured.hierarchy.total CacheStats.misses
  latency :
    measured.latency =
      measured.tally.latency measured.hierarchy.config.memoryAccessConfig

/-- Nothing is counted at first. -/
theorem balanced_start
    {start : Hierarchy}
    (fresh : start.Fresh) :
    Balanced ⟨start, 0⟩ := by
  obtain ⟨_, _, _, _, _, built⟩ := fresh.l2Cache
  have l2Stats := (Cache.new_clean built).2
  have l1Stats (sm : SharedMemory × Cache) (member : sm ∈ start.sms) :
      sm.2.stats = {} := by
    obtain ⟨_, _, _, _, _, built⟩ := fresh.l1Caches sm member
    exact (Cache.new_clean built).2
  have zeros
      {count : CacheStats → Nat}
      (isZero : count {} = 0) :
      start.total count = 0 := by
    rw [Hierarchy.total, List.sum_eq_zero_iff_forall_eq_nat]
    intro value member
    obtain ⟨sm, isSm, rfl⟩ := List.mem_map.mp member
    rw [l1Stats sm isSm, isZero]
  refine ⟨fun sm member => ?_, fun sm member => ?_, ?_, ?_⟩
  · rw [l1Stats sm member]
    rfl
  · rw [l1Stats sm member]
  · dsimp only
    rw [l2Stats, zeros rfl]
    rfl
  · simp only [tally, l2Stats, zeros, Amat.tallyOf, Tally.latency,
      Nat.zero_add, Nat.zero_mul]

/-- One operation keeps the counts balanced. -/
theorem Operates.balanced
    {before after : Measured}
    (operates : before.Operates after)
    (balanced : before.Balanced) :
    after.Balanced := by
  obtain ⟨index, sm, operation, memory, found, isGlobal, ran, rfl⟩ :=
    operates
  obtain ⟨tally, served, cost⟩ :=
    GlobalOperation.perform_served isGlobal ran
  obtain ⟨_, accesses, hits, misses, evictions, _, l2Hits, l2Misses,
    evictionsBound, _⟩ := served
  have member := List.mem_of_getElem? found
  have exchanged (count : CacheStats → Nat) :
      (before.hierarchy.update index memory).total count +
          count sm.2.stats =
        before.hierarchy.total count + count memory.l1Cache.stats :=
    Pointwise.sum_map_set found _
  have smAccesses := balanced.accesses sm member
  have smEvictions := balanced.evictions sm member
  have fetched := balanced.fetched
  have allHits := exchanged CacheStats.hits
  have allMisses := exchanged CacheStats.misses
  have allEvictions := exchanged CacheStats.dirtyEvictions
  dsimp only [Hierarchy.memoryOf] at accesses hits misses evictions
  dsimp only [Hierarchy.memoryOf] at l2Hits l2Misses
  refine ⟨fun other isOther => ?_, fun other isOther => ?_, ?_, ?_⟩
  · rcases List.mem_or_eq_of_mem_set isOther with old | rfl
    · exact balanced.accesses other old
    · dsimp only
      omega
  · rcases List.mem_or_eq_of_mem_set isOther with old | rfl
    · exact balanced.evictions other old
    · dsimp only
      omega
  · change
      memory.l2Cache.stats.hits + memory.l2Cache.stats.misses =
        (before.hierarchy.update index memory).total CacheStats.misses
    omega
  · have grows :
        Amat.tallyOf
            ((before.hierarchy.update index memory).total CacheStats.hits)
            ((before.hierarchy.update index memory).total
              CacheStats.misses)
            memory.l2Cache.stats.misses
            ((before.hierarchy.update index memory).total
              CacheStats.dirtyEvictions) =
          before.tally.and tally := by
      simp only [Measured.tally, Amat.tallyOf, Tally.and, Tally.mk.injEq]
      exact ⟨by omega, by omega, by omega, by omega⟩
    change
      before.latency +
          (operation.latencies (before.hierarchy.memoryOf sm)).sum =
        Tally.latency before.hierarchy.config.memoryAccessConfig
          (Amat.tallyOf
            ((before.hierarchy.update index memory).total CacheStats.hits)
            ((before.hierarchy.update index memory).total
              CacheStats.misses)
            memory.l2Cache.stats.misses
            ((before.hierarchy.update index memory).total
              CacheStats.dirtyEvictions))
    rw [grows, Tally.latency_and, ← balanced.latency, ← cost]
    rfl

/-- The counts are balanced in every run from fresh caches. -/
theorem balanced_run
    {start : Hierarchy}
    (fresh : start.Fresh)
    {measured : Measured}
    (run : Relation.ReflTransGen Operates ⟨start, 0⟩ measured) :
    measured.Balanced := by
  induction run with
  | refl => exact balanced_start fresh
  | tail _ step inductionHypothesis =>
      exact step.balanced inductionHypothesis

/-- All accesses are hits or misses. -/
theorem Balanced.total_accesses
    {measured : Measured}
    (balanced : measured.Balanced) :
    measured.hierarchy.total CacheStats.hits +
        measured.hierarchy.total CacheStats.misses =
      measured.hierarchy.total CacheStats.accesses := by
  have accesses := balanced.accesses
  unfold Hierarchy.total
  generalize measured.hierarchy.sms = sms at accesses ⊢
  induction sms with
  | nil => rfl
  | cons sm rest inductionHypothesis =>
      have first := accesses sm List.mem_cons_self
      have others :=
        inductionHypothesis fun other member =>
          accesses other (List.mem_cons_of_mem sm member)
      rw [List.map_cons, List.map_cons, List.map_cons, List.sum_cons,
        List.sum_cons, List.sum_cons, ← others, ← first]
      omega

/-- The L1 misses that hit the L2 cache are not more than all. -/
theorem Balanced.l2Misses_le
    {measured : Measured}
    (balanced : measured.Balanced) :
    measured.tally.l2Misses ≤ measured.tally.misses := by
  have fetched := balanced.fetched
  change
    measured.hierarchy.l2Cache.stats.misses ≤
      measured.hierarchy.total CacheStats.misses
  omega

/-- The counts of the only user of the L2 cache are those of all. -/
theorem total_of_only
    {measured : Measured}
    {index : Nat}
    {sm : SharedMemory × Cache}
    (found : measured.hierarchy.sms[index]? = some sm)
    (only :
      ∀ (other : Nat) (otherSm : SharedMemory × Cache),
        other ≠ index →
        measured.hierarchy.sms[other]? = some otherSm →
        otherSm.2.stats.accesses = 0)
    {count : CacheStats → Nat}
    (bounded :
      ∀ other ∈ measured.hierarchy.sms,
        count other.2.stats ≤ other.2.stats.accesses) :
    measured.hierarchy.total count = count sm.2.stats := by
  refine Pointwise.sum_of_only found fun other otherSm elsewhere isOther => ?_
  have unused := only other otherSm elsewhere isOther
  have bound := bounded otherSm (List.mem_of_getElem? isOther)
  rw [unused, Nat.le_zero] at bound
  exact bound

/--
The analytical mean latency is exact.  The sweep engine's formula on the
aggregated counts, times the number of L1 accesses, is the sum of all latencies
returned; so is the formula of a memory system that is the only user of its
L2 cache.
-/
theorem amat_exact
    {start : Hierarchy}
    (fresh : start.Fresh)
    {measured : Measured}
    (run : Relation.ReflTransGen Operates ⟨start, 0⟩ measured)
    (some : 0 < measured.hierarchy.total CacheStats.accesses) :
    SweepEngine.amat measured.hierarchy.config
          (measured.hierarchy.total CacheStats.hits)
          (measured.hierarchy.total CacheStats.misses)
          measured.hierarchy.l2Cache.stats.hits
          measured.hierarchy.l2Cache.stats.misses
          (measured.hierarchy.total CacheStats.dirtyEvictions) *
        measured.hierarchy.total CacheStats.accesses =
      measured.latency ∧
    ∀ index sm,
      measured.hierarchy.sms[index]? = Option.some sm →
      (∀ (other : Nat) (otherSm : SharedMemory × Cache),
        other ≠ index →
        measured.hierarchy.sms[other]? = Option.some otherSm →
        otherSm.2.stats.accesses = 0) →
      (measured.hierarchy.memoryOf sm).computeAmat *
          sm.2.stats.accesses =
        measured.latency := by
  have balanced := balanced_run fresh run
  have accesses := balanced.total_accesses
  have exact_ :
      Amat.ofTally measured.hierarchy.config.memoryAccessConfig
          measured.tally *
        measured.hierarchy.total CacheStats.accesses =
      measured.latency := by
    rw [balanced.latency, ← Amat.ofTally_mul _ balanced.l2Misses_le]
    · rw [← accesses]
      rfl
    · change
        0 <
          measured.hierarchy.total CacheStats.hits +
            measured.hierarchy.total CacheStats.misses
      rwa [accesses]
  constructor
  · rw [Amat.sweepEngine_amat_eq (by rwa [accesses]) balanced.fetched]
    exact exact_
  · intro index sm found only
    have bounded (other : SharedMemory × Cache)
        (member : other ∈ measured.hierarchy.sms) :
        other.2.stats.hits ≤ other.2.stats.accesses ∧
          other.2.stats.misses ≤ other.2.stats.accesses ∧
          other.2.stats.dirtyEvictions ≤ other.2.stats.accesses := by
      have sum := balanced.accesses other member
      have bound := balanced.evictions other member
      exact ⟨by omega, by omega, by omega⟩
    have hits :=
      total_of_only found only fun other member =>
        (bounded other member).1
    have misses :=
      total_of_only found only fun other member =>
        (bounded other member).2.1
    have evictions :=
      total_of_only found only fun other member =>
        (bounded other member).2.2
    have all :=
      total_of_only found only fun _ _ => Nat.le_refl _
    have fetched := balanced.fetched
    have own := balanced.accesses sm (List.mem_of_getElem? found)
    rw [all] at some exact_
    rw [misses] at fetched
    rw [Amat.computeAmat_eq]
    · rw [← exact_, Measured.tally, hits, misses, evictions]
      rfl
    · change 0 < sm.2.stats.hits + sm.2.stats.misses
      rwa [own]
    · exact fetched

/-- Let one multiprocessor perform one operation, if it can. -/
def operate
    (measured : Measured)
    (index : Nat)
    (operation : GlobalOperation) :
    Option Measured :=
  measured.hierarchy.sms[index]?.bind fun sm =>
    match operation.perform (measured.hierarchy.memoryOf sm) with
    | .error _ _ => none
    | .ok () memory =>
        some
          { hierarchy := measured.hierarchy.update index memory
            latency :=
              measured.latency +
                (operation.latencies (measured.hierarchy.memoryOf sm)).sum }

/-- An operation that could be performed is a step of a run. -/
theorem operates_of_operate
    {before after : Measured}
    {index : Nat}
    {operation : GlobalOperation}
    (isGlobal : operation.Global)
    (performed : before.operate index operation = some after) :
    before.Operates after := by
  obtain ⟨sm, found, performed⟩ := Option.bind_eq_some_iff.mp performed
  cases shape : operation.perform (before.hierarchy.memoryOf sm) with
  | error error memory =>
      rw [shape] at performed
      cases performed
  | ok value memory =>
      rw [shape] at performed
      cases performed
      exact ⟨index, sm, operation, memory, found, isGlobal, shape, rfl⟩

/-- Two multiprocessors with caches of one line each. -/
def pairHierarchy : Option Hierarchy :=
  ((Cache.new 1 1 16 "LRU" fun _ _ => 0).toOption).map fun cache =>
    { config :=
        { numSms := 2
          warpSize := 1
          blockSize := 1
          maxThreadsPerSm := 1
          maxBlocksPerSm := 1
          maxSharedMemoryPerSm := 64
          maxRegistersPerSm := 32 }
      sms := [(.new 64 32, cache), (.new 64 32, cache)]
      l2Cache := cache
      globalMemory := .new 64 }

/-- The caches of the pair are fresh. -/
theorem pairHierarchy_fresh
    {hierarchy : Hierarchy}
    (isPair : pairHierarchy = some hierarchy) :
    hierarchy.Fresh := by
  obtain ⟨cache, isCache, rfl⟩ := Option.map_eq_some_iff.mp isPair
  have built : Cache.new 1 1 16 "LRU" (fun _ _ => 0) = .ok cache := by
    generalize Cache.new 1 1 16 "LRU" (fun _ _ => 0) = result at isCache ⊢
    cases result with
    | error error => cases isCache
    | ok found =>
        cases isCache
        rfl
  refine ⟨fun sm member => ?_, ⟨_, _, _, _, _, built⟩⟩
  simp only [List.mem_cons, List.not_mem_nil, or_false, or_self] at member
  cases member
  exact ⟨_, _, _, _, _, built⟩

/-- The first multiprocessor stores to two lines, one evicting the other. -/
def pairRun : Option (Hierarchy × Measured) :=
  pairHierarchy.bind fun start =>
    (operate ⟨start, 0⟩ 0 (.warpStore [(0, 7), (16, 8)])).map fun after =>
      (start, after)

/-- Two misses of both caches and one line written back. -/
theorem amat_exact_two_sms :
    ∃ start after sm,
      Relation.ReflTransGen Operates ⟨start, 0⟩ after ∧
        after.hierarchy.total CacheStats.accesses = 2 ∧
        SweepEngine.amat after.hierarchy.config
              (after.hierarchy.total CacheStats.hits)
              (after.hierarchy.total CacheStats.misses)
              after.hierarchy.l2Cache.stats.hits
              after.hierarchy.l2Cache.stats.misses
              (after.hierarchy.total CacheStats.dirtyEvictions) *
            (2 : Nat) =
          (270 : Nat) ∧
        after.hierarchy.sms[0]? = some sm ∧
        (after.hierarchy.memoryOf sm).computeAmat * (2 : Nat) =
          (270 : Nat) := by
  have computed :
      pairRun.map (fun ran =>
          (ran.2.hierarchy.total CacheStats.accesses, ran.2.latency,
            ran.2.hierarchy.sms.map fun sm => sm.2.stats.accesses)) =
        some (2, 270, [2, 0]) := by
    decide +kernel
  obtain ⟨⟨start, after⟩, ran, shape⟩ :=
    Option.map_eq_some_iff.mp computed
  obtain ⟨_, isPair, ran⟩ := Option.bind_eq_some_iff.mp ran
  obtain ⟨_, isStored, same⟩ := Option.map_eq_some_iff.mp ran
  cases same
  simp only [Prod.mk.injEq, List.map_eq_cons_iff, List.map_eq_nil_iff]
    at shape
  obtain
    ⟨accesses, latency, sm, _, sms, ownAccesses, other, _, rfl, unused,
      rfl⟩ :=
    shape
  have isGlobal :
      (GlobalOperation.warpStore [(0, 7), (16, 8)]).Global := by
    unfold GlobalOperation.Global
    decide
  have run : Relation.ReflTransGen Operates ⟨start, 0⟩ after :=
    .single (operates_of_operate isGlobal isStored)
  obtain ⟨aggregated, own⟩ :=
    amat_exact (pairHierarchy_fresh isPair) run (by rw [accesses]; decide)
  have first : after.hierarchy.sms[0]? = some sm := by rw [sms]; rfl
  have ownAmat :=
    own 0 sm first fun index otherSm elsewhere found => by
      rw [sms] at found
      rcases index with _ | _ | index
      · exact absurd rfl elsewhere
      · cases found
        exact unused
      · cases found
  rw [accesses, latency] at aggregated
  rw [ownAccesses, latency] at ownAmat
  exact ⟨start, after, sm, run, accesses, aggregated, first, ownAmat⟩

end Measured

end SimSm
