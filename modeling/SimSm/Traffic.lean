import Mathlib.Tactic.Ring
import SimSm.Execution
import SimSm.StreamingMultiprocessor

namespace SimSm

/-!
# Memory traffic

One event of the memory hierarchy is counted in several places: the statistics
of the two caches, the result of the memory system and the result of the
executor.  The line accesses that a computation makes are summed up in a
tally, from which all of these counts follow.
-/

open Outcome

/-! ## One cache access -/

namespace Cache

/-- No line of the cache is dirty. -/
def Clean (cache : Cache) : Prop :=
  ∀ lines ∈ cache.sets, ∀ line ∈ lines, line.dirty = false

/-- What one lookup counts. -/
structure Counted
    (isWrite : Bool)
    (before : Cache)
    (result : CacheAccessResult)
    (after : Cache) : Prop where
  accesses : after.stats.accesses = before.stats.accesses + 1
  hits : after.stats.hits = before.stats.hits + result.hit.toNat
  misses : after.stats.misses = before.stats.misses + (!result.hit).toNat
  dirtyEvictions :
    after.stats.dirtyEvictions =
      before.stats.dirtyEvictions + result.dirtyEviction.toNat
  hitEvictsNothing : result.hit = true → result.dirtyEviction = false
  clean :
    isWrite = false →
    before.Clean →
    after.Clean ∧ result.dirtyEviction = false

/-- The lines of a clean cache's set are not dirty. -/
theorem Clean.getD
    {cache : Cache}
    (clean : cache.Clean)
    {set : Nat}
    {line : CacheLine}
    (member : line ∈ cache.sets.getD set []) :
    line.dirty = false := by
  rw [List.getD_eq_getElem?_getD] at member
  cases found : cache.sets[set]? with
  | none =>
      rw [found] at member
      cases member
  | some lines =>
      rw [found] at member
      exact clean lines (List.mem_of_getElem? found) line member

/-- A set of clean lines may be written to a clean cache. -/
theorem Clean.set
    {cache after : Cache}
    (clean : cache.Clean)
    {set : Nat}
    {lines : List CacheLine}
    (sets : after.sets = cache.sets.set set lines)
    (cleanLines : ∀ line ∈ lines, line.dirty = false) :
    after.Clean := by
  intro other member line isLine
  rw [sets] at member
  rcases List.mem_or_eq_of_mem_set member with old | rfl
  · exact clean other old line isLine
  · exact cleanLines line isLine

/-- A successful lookup counts one access, as a hit or as a miss. -/
theorem lookupAndFill_counted
    {address : Nat}
    {isWrite : Bool}
    {before after : Cache}
    {result : CacheAccessResult}
    (ran : lookupAndFill address isWrite before = .ok result after) :
    Counted isWrite before result after := by
  cases isPolicy : before.policies[before.setIndex address]? with
  | none => simp only [lookupAndFill, isPolicy, reduceCtorEq] at ran
  | some policy =>
      cases found :
          findHit? (before.sets.getD (before.setIndex address) [])
            (before.tagOf address) with
      | some way =>
          rw [lookupAndFill_hit isPolicy found] at ran
          obtain ⟨rfl, rfl⟩ := EStateM.Result.ok.inj ran
          refine ⟨rfl, rfl, rfl, rfl, fun _ => rfl, ?_⟩
          intro isRead clean
          refine ⟨clean.set rfl ?_, rfl⟩
          intro line member
          obtain ⟨position, isLine⟩ := List.mem_iff_getElem?.mp member
          rw [List.getElem?_modify] at isLine
          obtain ⟨old, isOld, shape⟩ := Option.map_eq_some_iff.mp isLine
          have oldClean := clean.getD (List.mem_of_getElem? isOld)
          rw [← shape]
          split
          · rw [isRead, oldClean]
            rfl
          · exact oldClean
      | none =>
          cases isVictim :
              policy.chooseVictim
                (before.sets.getD (before.setIndex address) []) with
          | error error =>
              simp only [lookupAndFill, isPolicy, found, isVictim,
                reduceCtorEq] at ran
          | ok pair =>
              rcases pair with ⟨way, chosen⟩
              rw [lookupAndFill_miss isPolicy found isVictim] at ran
              obtain ⟨rfl, rfl⟩ := EStateM.Result.ok.inj ran
              refine ⟨rfl, rfl, rfl, rfl, fun isHit => ?_, ?_⟩
              · cases isHit
              intro isRead clean
              refine ⟨clean.set rfl ?_, ?_⟩
              · intro line member
                rcases List.mem_or_eq_of_mem_set member with old | rfl
                · exact clean.getD old
                · exact isRead
              · have victimClean :
                    ((before.sets.getD (before.setIndex address) []).getD
                      way {}).dirty = false := by
                  rw [List.getD_eq_getElem?_getD]
                  cases isLine :
                      (before.sets.getD
                        (before.setIndex address) [])[way]? with
                  | none => rfl
                  | some line =>
                      exact clean.getD (List.mem_of_getElem? isLine)
                rw [victimClean, Bool.and_false]

/-- A fresh cache is clean and has counted nothing. -/
theorem new_clean
    {numSets associativity lineSize : Nat}
    {policyName : String}
    {rng : Nat → Nat → Nat}
    {cache : Cache}
    (built :
      Cache.new numSets associativity lineSize policyName rng =
        .ok cache) :
    cache.Clean ∧ cache.stats = {} := by
  unfold Cache.new at built
  split at built
  · cases built
  · obtain ⟨policies, _, rfl⟩ := except_map_ok.mp built
    refine ⟨?_, rfl⟩
    intro lines member line isLine
    rw [List.eq_of_mem_replicate member] at isLine
    rw [List.eq_of_mem_replicate isLine]

end Cache

/-! ## Line accesses -/

/-- How many line accesses were made and what became of them. -/
structure Tally where
  accesses : Nat
  misses : Nat
  l2Misses : Nat
  dirtyEvictions : Nat

namespace Tally

/-- No access. -/
def none : Tally :=
  ⟨0, 0, 0, 0⟩

/-- The accesses of two computations together. -/
def and (first second : Tally) : Tally where
  accesses := first.accesses + second.accesses
  misses := first.misses + second.misses
  l2Misses := first.l2Misses + second.l2Misses
  dirtyEvictions := first.dirtyEvictions + second.dirtyEvictions

/-- What the accesses cost altogether. -/
def latency (config : MemoryAccessConfig) (tally : Tally) : Nat :=
  tally.accesses * config.l1Latency + tally.misses * config.l2Latency +
    tally.l2Misses * config.globalMemoryLatency +
    tally.dirtyEvictions * config.writebackLatency

/-- The cost of two computations is the sum of their costs. -/
theorem latency_and
    (config : MemoryAccessConfig)
    (first second : Tally) :
    (first.and second).latency config =
      first.latency config + second.latency config := by
  simp only [latency, Tally.and]
  ring

end Tally

namespace MemorySystem

/-- The caches of a memory system were used for some line accesses. -/
structure Served
    (before after : MemorySystem)
    (tally : Tally) : Prop where
  config : after.config = before.config
  accesses :
    after.l1Cache.stats.accesses =
      before.l1Cache.stats.accesses + tally.accesses
  hits :
    after.l1Cache.stats.hits + tally.misses =
      before.l1Cache.stats.hits + tally.accesses
  misses :
    after.l1Cache.stats.misses = before.l1Cache.stats.misses + tally.misses
  dirtyEvictions :
    after.l1Cache.stats.dirtyEvictions =
      before.l1Cache.stats.dirtyEvictions + tally.dirtyEvictions
  l2Accesses :
    after.l2Cache.stats.accesses =
      before.l2Cache.stats.accesses + tally.misses
  l2Hits :
    after.l2Cache.stats.hits + tally.l2Misses =
      before.l2Cache.stats.hits + tally.misses
  l2Misses :
    after.l2Cache.stats.misses =
      before.l2Cache.stats.misses + tally.l2Misses
  evictions : tally.dirtyEvictions ≤ tally.misses
  clean :
    before.l2Cache.Clean →
    after.l2Cache.Clean ∧
      after.l2Cache.stats.dirtyEvictions =
        before.l2Cache.stats.dirtyEvictions

namespace Served

/-- Computations that keep the caches make no line access. -/
theorem of_sameCaches
    {before after : MemorySystem}
    (config : after.config = before.config)
    (l1Cache : after.l1Cache = before.l1Cache)
    (l2Cache : after.l2Cache = before.l2Cache) :
    Served before after .none := by
  refine ⟨config, ?_, ?_, ?_, ?_, ?_, ?_, ?_, Nat.le_refl 0, ?_⟩
  · rw [l1Cache]; rfl
  · rw [l1Cache]; rfl
  · rw [l1Cache]; rfl
  · rw [l1Cache]; rfl
  · rw [l2Cache]; rfl
  · rw [l2Cache]; rfl
  · rw [l2Cache]; rfl
  · rw [l2Cache]
    exact fun clean => ⟨clean, rfl⟩

/-- The accesses of consecutive computations add up. -/
theorem trans
    {first second third : MemorySystem}
    {earlier later : Tally}
    (firstServed : Served first second earlier)
    (secondServed : Served second third later) :
    Served first third (earlier.and later) := by
  obtain ⟨config, accesses, hits, misses, dirty, l2Accesses, l2Hits,
    l2Misses, evictions, clean⟩ := firstServed
  obtain ⟨config', accesses', hits', misses', dirty', l2Accesses', l2Hits',
    l2Misses', evictions', clean'⟩ := secondServed
  refine
    ⟨config'.trans config, ?_, ?_, ?_, ?_, ?_, ?_, ?_,
      Nat.add_le_add evictions evictions', ?_⟩
  · simp only [Tally.and]; omega
  · simp only [Tally.and]; omega
  · simp only [Tally.and]; omega
  · simp only [Tally.and]; omega
  · simp only [Tally.and]; omega
  · simp only [Tally.and]; omega
  · simp only [Tally.and]; omega
  · intro isClean
    obtain ⟨middleClean, middleCount⟩ := clean isClean
    obtain ⟨lastClean, lastCount⟩ := clean' middleClean
    exact ⟨lastClean, lastCount.trans middleCount⟩

/-- A hit is one access to the L1 cache. -/
theorem hit
    {memory : MemorySystem}
    {isWrite : Bool}
    {result : CacheAccessResult}
    {l1Cache : Cache}
    (counted : memory.l1Cache.Counted isWrite result l1Cache)
    (isHit : result.hit = true) :
    Served memory { memory with l1Cache := l1Cache } ⟨1, 0, 0, 0⟩ := by
  obtain ⟨accesses, hits, misses, dirty, noEviction, _⟩ := counted
  rw [isHit] at hits misses
  rw [noEviction isHit] at dirty
  exact
    ⟨rfl, accesses, hits, misses, dirty, rfl, rfl, rfl, Nat.le_refl 0,
      fun clean => ⟨clean, rfl⟩⟩

/-- A miss is one access to the L1 cache and one to the L2 cache. -/
theorem miss
    {memory : MemorySystem}
    {isWrite : Bool}
    {result l2Result : CacheAccessResult}
    {l1Cache l2Cache : Cache}
    (counted : memory.l1Cache.Counted isWrite result l1Cache)
    (l2Counted : memory.l2Cache.Counted false l2Result l2Cache)
    (isMiss : result.hit = false) :
    Served memory
      { memory with l1Cache := l1Cache, l2Cache := l2Cache }
      ⟨1, 1, (!l2Result.hit).toNat, result.dirtyEviction.toNat⟩ := by
  obtain ⟨accesses, hits, misses, dirty, _, _⟩ := counted
  obtain ⟨l2Accesses, l2Hits, l2Misses, l2Dirty, _, l2Clean⟩ := l2Counted
  rw [isMiss] at hits misses
  refine
    ⟨rfl, accesses, ?_, misses, dirty, l2Accesses, ?_, l2Misses,
      Bool.toNat_le _, ?_⟩
  · dsimp only
    rw [hits]
    rfl
  · dsimp only
    rw [l2Hits]
    cases l2Result.hit with
    | false => rfl
    | true => rfl
  · intro clean
    obtain ⟨isClean, noEviction⟩ := l2Clean rfl clean
    rw [noEviction] at l2Dirty
    exact ⟨isClean, l2Dirty⟩

end Served

/-- An operation on the L1 cache changes that cache only. -/
theorem onL1_ok
    {operation : CacheM α}
    {before after : MemorySystem}
    {value : α}
    (ran : onL1 operation before = .ok value after) :
    ∃ cache,
      operation before.l1Cache = .ok value cache ∧
        after = { before with l1Cache := cache } := by
  unfold onL1 at ran
  cases shape : operation before.l1Cache with
  | error error cache => simp only [shape, reduceCtorEq] at ran
  | ok found cache =>
      simp only [shape, EStateM.Result.ok.injEq] at ran
      obtain ⟨rfl, rfl⟩ := ran
      exact ⟨cache, rfl, rfl⟩

/-- An operation on the L2 cache changes that cache only. -/
theorem onL2_ok
    {operation : CacheM α}
    {before after : MemorySystem}
    {value : α}
    (ran : onL2 operation before = .ok value after) :
    ∃ cache,
      operation before.l2Cache = .ok value cache ∧
        after = { before with l2Cache := cache } := by
  unfold onL2 at ran
  cases shape : operation before.l2Cache with
  | error error cache => simp only [shape, reduceCtorEq] at ran
  | ok found cache =>
      simp only [shape, EStateM.Result.ok.injEq] at ran
      obtain ⟨rfl, rfl⟩ := ran
      exact ⟨cache, rfl, rfl⟩

/-- A latency function makes one line access and reports what it cost. -/
def ChargesLine (latencyOf : Nat → MemoryM (Nat × Nat)) : Prop :=
  ∀ (address latency dirty : Nat) (before after : MemorySystem),
    latencyOf address before = .ok (latency, dirty) after →
    ∃ tally,
      Served before after tally ∧ tally.accesses = 1 ∧
        tally.dirtyEvictions = dirty ∧
        tally.latency before.config = latency

/-- The cost of a miss, as both latency functions compute it. -/
theorem latency_miss
    (config : MemoryAccessConfig)
    (l2Hit dirty : Bool) :
    (Tally.mk 1 1 (!l2Hit).toNat dirty.toNat).latency config =
      (if l2Hit = true then
          config.l1Latency + config.l2Latency
        else
          config.l1Latency +
            (config.l2Latency + config.globalMemoryLatency)) +
        if dirty = true then config.writebackLatency else 0 := by
  cases l2Hit with
  | false =>
      cases dirty with
      | false => simp [Tally.latency]; omega
      | true => simp [Tally.latency]; omega
  | true =>
      cases dirty with
      | false => simp [Tally.latency]
      | true => simp [Tally.latency]

/-- The writeback of a dirty eviction is charged once. -/
theorem writeback_ok
    {dirty : Bool}
    {latency writeback : Nat}
    {before after : MemorySystem}
    {total evictions : Nat}
    (ran :
      (if dirty = true then
          (pure (latency + writeback, 1) : MemoryM (Nat × Nat))
        else
          pure (latency, 0)) before = .ok (total, evictions) after) :
    total = (latency + if dirty = true then writeback else 0) ∧
      evictions = dirty.toNat ∧ after = before := by
  cases dirty with
  | false =>
      obtain ⟨shape, rfl⟩ := state_pure_ok.mp ran
      obtain ⟨rfl, rfl⟩ := Prod.mk.inj shape
      exact ⟨rfl, rfl, rfl⟩
  | true =>
      obtain ⟨shape, rfl⟩ := state_pure_ok.mp ran
      obtain ⟨rfl, rfl⟩ := Prod.mk.inj shape
      exact ⟨rfl, rfl, rfl⟩

/-- A global read charges one line. -/
theorem readLatency_charges : ChargesLine readLatency := by
  intro address latency dirty before after ran
  unfold readLatency at ran
  obtain ⟨_, _, got, rest⟩ := state_bind_ok.mp ran
  obtain ⟨rfl, rfl⟩ := state_get_ok.mp got
  obtain ⟨l1Result, _, accessed, rest⟩ := state_bind_ok.mp rest
  obtain ⟨l1Cache, l1Ran, rfl⟩ := onL1_ok accessed
  have counted := Cache.lookupAndFill_counted l1Ran
  split at rest
  · rename_i isHit
    obtain ⟨shape, rfl⟩ := state_pure_ok.mp rest
    obtain ⟨rfl, rfl⟩ := Prod.mk.inj shape
    refine ⟨_, .hit counted isHit, rfl, rfl, ?_⟩
    simp [Tally.latency]
  · rename_i isMiss
    rw [Bool.not_eq_true] at isMiss
    obtain ⟨l2Result, _, accessed, rest⟩ := state_bind_ok.mp rest
    obtain ⟨l2Cache, l2Ran, rfl⟩ := onL2_ok accessed
    have l2Counted := Cache.lookupAndFill_counted l2Ran
    obtain ⟨rfl, rfl, rfl⟩ := writeback_ok rest
    exact
      ⟨_, .miss counted l2Counted isMiss, rfl, rfl,
        latency_miss _ l2Result.hit l1Result.dirtyEviction⟩

/-- A global write charges one line. -/
theorem writeLatency_charges : ChargesLine writeLatency := by
  intro address latency dirty before after ran
  unfold writeLatency at ran
  obtain ⟨_, _, got, rest⟩ := state_bind_ok.mp ran
  obtain ⟨rfl, rfl⟩ := state_get_ok.mp got
  obtain ⟨l1Result, _, accessed, rest⟩ := state_bind_ok.mp rest
  obtain ⟨l1Cache, l1Ran, rfl⟩ := onL1_ok accessed
  have counted := Cache.lookupAndFill_counted l1Ran
  split at rest
  · rename_i isHit
    obtain ⟨_, _, fetched, rest⟩ := state_bind_ok.mp rest
    obtain ⟨rfl, rfl⟩ := state_pure_ok.mp fetched
    obtain ⟨rfl, rfl, rfl⟩ := writeback_ok rest
    have noEviction := counted.hitEvictsNothing isHit
    refine ⟨_, .hit counted isHit, rfl, ?_, ?_⟩
    · rw [noEviction]
      rfl
    · rw [noEviction]
      simp [Tally.latency]
  · rename_i isMiss
    rw [Bool.not_eq_true] at isMiss
    obtain ⟨l2Result, _, accessed, rest⟩ := state_bind_ok.mp rest
    obtain ⟨l2Cache, l2Ran, rfl⟩ := onL2_ok accessed
    have l2Counted := Cache.lookupAndFill_counted l2Ran
    have served := Served.miss counted l2Counted isMiss
    split at rest
    · rename_i l2Hit
      obtain ⟨_, _, returned, rest⟩ := state_bind_ok.mp rest
      obtain ⟨rfl, rfl⟩ := state_pure_ok.mp returned
      obtain ⟨rfl, rfl, rfl⟩ := writeback_ok rest
      refine ⟨_, served, rfl, rfl, ?_⟩
      rw [latency_miss, if_pos l2Hit]
    · rename_i l2Miss
      obtain ⟨_, _, returned, rest⟩ := state_bind_ok.mp rest
      obtain ⟨rfl, rfl⟩ := state_pure_ok.mp returned
      obtain ⟨rfl, rfl, rfl⟩ := writeback_ok rest
      refine ⟨_, served, rfl, rfl, ?_⟩
      rw [latency_miss, if_neg l2Miss]

/-- The latencies that a latency function returns on consecutive lines. -/
def lineLatencies
    (latencyOf : Nat → MemoryM (Nat × Nat)) :
    List Nat → MemorySystem → List Nat
  | [], _ => []
  | lineBase :: rest, memory =>
      match latencyOf lineBase memory with
      | .ok (latency, _) after =>
          latency :: lineLatencies latencyOf rest after
      | .error _ _ => []

/-- Charging lines makes one access for each and sums up their evictions. -/
theorem chargeTransactions_served
    {latencyOf : Nat → MemoryM (Nat × Nat)}
    (charges : ChargesLine latencyOf)
    {lines : List Nat}
    {maxLatency dirty : Nat}
    {before after : MemorySystem}
    {latency total : Nat}
    (ran :
      chargeTransactions latencyOf lines maxLatency dirty before =
        .ok (latency, total) after) :
    ∃ tally,
      Served before after tally ∧ tally.accesses = lines.length ∧
        total = dirty + tally.dirtyEvictions ∧
        tally.latency before.config =
          (lineLatencies latencyOf lines before).sum := by
  induction lines generalizing maxLatency dirty before with
  | nil =>
      obtain ⟨shape, rfl⟩ := state_pure_ok.mp ran
      obtain ⟨rfl, rfl⟩ := Prod.mk.inj shape
      refine ⟨.none, .of_sameCaches rfl rfl rfl, rfl, rfl, ?_⟩
      simp [Tally.latency, Tally.none, lineLatencies]
  | cons line rest inductionHypothesis =>
      obtain ⟨⟨lineLatency, lineDirty⟩, middle, charged, later⟩ :=
        state_bind_ok.mp ran
      obtain ⟨first, firstServed, one, firstDirty, cost⟩ :=
        charges _ _ _ _ _ charged
      obtain ⟨others, othersServed, count, othersDirty, costs⟩ :=
        inductionHypothesis later
      refine
        ⟨first.and others, firstServed.trans othersServed, ?_, ?_, ?_⟩
      · rw [Tally.and, one, count, List.length_cons, Nat.add_comm]
      · rw [Tally.and, othersDirty, firstDirty, Nat.add_assoc]
      · rw [Tally.latency_and, cost, ← firstServed.config, costs]
        simp only [lineLatencies, charged, List.sum_cons]

/-! ## The data of a warp access -/

/-- An operation on data only. -/
def KeepsCaches (operation : MemoryM α) : Prop :=
  ∀ (before after : MemorySystem) (value : α),
    operation before = .ok value after →
    after.config = before.config ∧ after.l1Cache = before.l1Cache ∧
      after.l2Cache = before.l2Cache

theorem KeepsCaches.pure (value : α) :
    KeepsCaches (pure value : MemoryM α) := by
  intro before after result ran
  obtain ⟨_, rfl⟩ := state_pure_ok.mp ran
  exact ⟨rfl, rfl, rfl⟩

theorem KeepsCaches.bind
    {first : MemoryM α}
    {next : α → MemoryM β}
    (firstKeeps : KeepsCaches first)
    (nextKeeps : ∀ value, KeepsCaches (next value)) :
    KeepsCaches (first >>= next) := by
  intro before after result ran
  obtain ⟨value, middle, firstRan, nextRan⟩ := state_bind_ok.mp ran
  obtain ⟨config, l1Cache, l2Cache⟩ := firstKeeps _ _ _ firstRan
  obtain ⟨config', l1Cache', l2Cache'⟩ := nextKeeps value _ _ _ nextRan
  exact
    ⟨config'.trans config, l1Cache'.trans l1Cache, l2Cache'.trans l2Cache⟩

theorem KeepsCaches.get : KeepsCaches (get : MemoryM MemorySystem) := by
  intro before after result ran
  obtain ⟨_, rfl⟩ := state_get_ok.mp ran
  exact ⟨rfl, rfl, rfl⟩

theorem KeepsCaches.lift (result : Except SimError α) :
    KeepsCaches (liftExcept result : MemoryM α) := by
  intro before after value ran
  obtain ⟨_, rfl⟩ := InstructionExecutor.liftExcept_ok ran
  exact ⟨rfl, rfl, rfl⟩

theorem globalLoad_keeps (address : Nat) :
    KeepsCaches (globalLoad address) :=
  .bind .get fun memory => .lift (memory.globalMemory.load address)

theorem sharedLoad_keeps (address : Nat) :
    KeepsCaches (sharedLoad address) :=
  .bind .get fun memory =>
    .bind (.lift (memory.sharedMemory.load address)) fun _ => .pure _

theorem globalStore_keeps (address : Nat) (value : Word) :
    KeepsCaches (globalStore address value) := by
  intro before after result ran
  obtain ⟨_, _, got, rest⟩ := state_bind_ok.mp ran
  obtain ⟨rfl, rfl⟩ := state_get_ok.mp got
  obtain ⟨globalMemory, _, stored, rest⟩ := state_bind_ok.mp rest
  obtain ⟨_, rfl⟩ := InstructionExecutor.liftExcept_ok stored
  rw [← state_set_ok.mp rest]
  exact ⟨rfl, rfl, rfl⟩

theorem sharedStore_keeps (address : Nat) (value : Word) :
    KeepsCaches (sharedStore address value) := by
  intro before after result ran
  obtain ⟨_, _, got, rest⟩ := state_bind_ok.mp ran
  obtain ⟨rfl, rfl⟩ := state_get_ok.mp got
  obtain ⟨sharedMemory, _, stored, rest⟩ := state_bind_ok.mp rest
  obtain ⟨_, rfl⟩ := InstructionExecutor.liftExcept_ok stored
  obtain ⟨_, _, written, returned⟩ := state_bind_ok.mp rest
  obtain ⟨_, rfl⟩ := state_pure_ok.mp returned
  rw [← state_set_ok.mp written]
  exact ⟨rfl, rfl, rfl⟩

/-- A loop of data accesses to shared memory keeps the caches. -/
theorem sharedAccesses_keeps
    {access : Nat → β → MemoryM (α × Nat)}
    (keeps : ∀ address argument, KeepsCaches (access address argument))
    (accesses : List (Nat × β))
    (maxLatency : Nat) :
    KeepsCaches (sharedAccesses access accesses maxLatency) := by
  induction accesses generalizing maxLatency with
  | nil => exact .pure _
  | cons first rest inductionHypothesis =>
      exact
        .bind (keeps _ _) fun _ =>
          .bind (inductionHypothesis _) fun _ => .pure _

/-- A loop of data accesses to global memory keeps the caches. -/
theorem globalAccesses_keeps
    {access : Nat → β → MemoryM α}
    (keeps : ∀ address argument, KeepsCaches (access address argument))
    (accesses : List (Nat × β)) :
    KeepsCaches (globalAccesses access accesses) := by
  induction accesses with
  | nil => exact .pure _
  | cons first rest inductionHypothesis =>
      exact
        .bind (keeps _ _) fun _ =>
          .bind inductionHypothesis fun _ => .pure _

/-- The latencies of the line accesses that a warp access makes. -/
def accessLatencies
    (latencyOf : Nat → MemoryM (Nat × Nat))
    (addresses : List Nat)
    (memory : MemorySystem) :
    List Nat :=
  if addresses.any isShared then
    []
  else
    lineLatencies latencyOf
      (coalesce addresses memory.l1Cache.lineSize) memory

/-- The lanes of an access to shared memory; none of one to global memory. -/
def sharedLanes (addresses : List Nat) : Nat :=
  if addresses.any isShared then addresses.length else 0

/-- What a warp access counts, for each line access or for each shared lane. -/
def WarpServed
    (latencyOf : Nat → MemoryM (Nat × Nat))
    (addresses : List Nat)
    (before : MemorySystem)
    (result : WarpMemoryResult)
    (after : MemorySystem) : Prop :=
  ∃ tally,
    Served before after tally ∧
      result.dirtyEvictionWritebacks = tally.dirtyEvictions ∧
      result.numTransactions = tally.accesses + sharedLanes addresses ∧
      tally.latency before.config =
        (accessLatencies latencyOf addresses before).sum

/-- The addresses of a warp access are all in the space of the first. -/
theorem isShared_eq
    {first : Nat}
    {rest : List Nat}
    (uniform :
      ¬ ((first :: rest).any fun address =>
          isShared address != isShared first) = true)
    {address : Nat}
    (member : address ∈ first :: rest) :
    isShared address = isShared first := by
  by_contra differs
  refine uniform (List.any_eq_true.mpr ⟨address, member, ?_⟩)
  rw [bne_iff_ne]
  exact differs

/-- A warp access counts what its latency function and its lanes count. -/
theorem warpAccess_served
    {latencyOf : Nat → MemoryM (Nat × Nat)}
    {onShared : Nat → β → MemoryM (α × Nat)}
    {onGlobal : Nat → β → MemoryM α}
    (charges : ChargesLine latencyOf)
    (sharedKeeps : ∀ address argument, KeepsCaches (onShared address argument))
    (globalKeeps : ∀ address argument, KeepsCaches (onGlobal address argument))
    {accesses : List (Nat × β)}
    {before after : MemorySystem}
    {values : List α}
    {result : WarpMemoryResult}
    (ran :
      warpAccess latencyOf onShared onGlobal accesses before =
        .ok (values, result) after) :
    WarpServed latencyOf (accesses.map Prod.fst) before result after := by
  have noCost (config : MemoryAccessConfig) :
      Tally.none.latency config = 0 := by
    simp [Tally.latency, Tally.none]
  unfold warpAccess at ran
  cases addresses : accesses.map Prod.fst with
  | nil =>
      simp only [addresses] at ran
      obtain ⟨shape, rfl⟩ := state_pure_ok.mp ran
      obtain ⟨rfl, rfl⟩ := Prod.mk.inj shape
      refine ⟨.none, .of_sameCaches rfl rfl rfl, rfl, rfl, ?_⟩
      rw [noCost]
      simp [accessLatencies, coalesce, lineLatencies]
  | cons first rest =>
      simp only [addresses] at ran
      split at ran
      · exact (state_throw_not_ok ran).elim
      · rename_i uniform
        have sameSpace {address : Nat} := @isShared_eq first rest uniform address
        split at ran
        · rename_i shared
          obtain ⟨_, _, got, later⟩ := state_bind_ok.mp ran
          obtain ⟨rfl, rfl⟩ := state_get_ok.mp got
          obtain ⟨⟨_, maxLatency⟩, middle, accessed, returned⟩ :=
            state_bind_ok.mp later
          obtain ⟨shape, rfl⟩ := state_pure_ok.mp returned
          obtain ⟨rfl, rfl⟩ := Prod.mk.inj shape
          obtain ⟨config, l1Cache, l2Cache⟩ :=
            sharedAccesses_keeps sharedKeeps _ _ _ _ _ accessed
          have isAny : (first :: rest).any isShared = true :=
            List.any_eq_true.mpr ⟨first, List.mem_cons_self, shared⟩
          refine
            ⟨.none, .of_sameCaches config l1Cache l2Cache, rfl, ?_, ?_⟩
          · rw [sharedLanes, if_pos isAny]
            exact (Nat.zero_add _).symm
          · rw [noCost, accessLatencies, if_pos isAny]
            rfl
        · rename_i notShared
          obtain ⟨_, _, got, later⟩ := state_bind_ok.mp ran
          obtain ⟨rfl, rfl⟩ := state_get_ok.mp got
          obtain ⟨⟨maxLatency, dirty⟩, middle, charged, later⟩ :=
            state_bind_ok.mp later
          obtain ⟨_, last, accessed, returned⟩ := state_bind_ok.mp later
          obtain ⟨shape, rfl⟩ := state_pure_ok.mp returned
          obtain ⟨rfl, rfl⟩ := Prod.mk.inj shape
          obtain ⟨config, l1Cache, l2Cache⟩ :=
            globalAccesses_keeps globalKeeps _ _ _ _ accessed
          obtain ⟨tally, served, count, evictions, cost⟩ :=
            chargeTransactions_served charges charged
          have notAny : ¬ (first :: rest).any isShared = true := by
            intro anyShared
            obtain ⟨address, member, shared⟩ :=
              List.any_eq_true.mp anyShared
            rw [sameSpace member] at shared
            exact notShared shared
          have whole := served.trans (.of_sameCaches config l1Cache l2Cache)
          refine ⟨tally.and .none, whole, ?_, ?_, ?_⟩
          · dsimp only
            rw [evictions, Nat.zero_add]
            rfl
          · dsimp only
            rw [sharedLanes, if_neg notAny, ← count]
            rfl
          · rw [Tally.latency_and, noCost, Nat.add_zero, cost,
              accessLatencies, if_neg notAny]

theorem warpLoad_served
    {addresses : List Nat}
    {before after : MemorySystem}
    {values : List Word}
    {result : WarpMemoryResult}
    (ran : warpLoad addresses before = .ok (values, result) after) :
    WarpServed readLatency addresses before result after := by
  have served :=
    warpAccess_served readLatency_charges
      (fun address _ => sharedLoad_keeps address)
      (fun address _ => globalLoad_keeps address) ran
  rwa [List.map_map, Function.comp_def, List.map_id'] at served

theorem warpStore_served
    {accesses : List (Nat × Word)}
    {before after : MemorySystem}
    {result : WarpMemoryResult}
    (ran : warpStore accesses before = .ok result after) :
    WarpServed writeLatency (accesses.map Prod.fst) before result after := by
  obtain ⟨⟨_, timing⟩, middle, accessed, returned⟩ := state_bind_ok.mp ran
  obtain ⟨rfl, rfl⟩ := state_pure_ok.mp returned
  exact
    warpAccess_served writeLatency_charges
      (fun address value =>
        .bind (sharedStore_keeps address value) fun _ => .pure _)
      globalStore_keeps accessed

theorem warpAtomicAdd_served
    {accesses : List (Nat × Word)}
    {before after : MemorySystem}
    {result : WarpMemoryResult}
    (ran : warpAtomicAdd accesses before = .ok result after) :
    WarpServed writeLatency (accesses.map Prod.fst) before result after := by
  obtain ⟨⟨_, timing⟩, middle, accessed, returned⟩ := state_bind_ok.mp ran
  obtain ⟨rfl, rfl⟩ := state_pure_ok.mp returned
  exact
    warpAccess_served writeLatency_charges
      (fun address _ =>
        .bind .get fun _ =>
          .bind (.lift _) fun _ =>
            .bind (sharedStore_keeps address _) fun _ => .pure _)
      (fun address _ =>
        .bind (globalLoad_keeps address) fun _ => globalStore_keeps address _)
      accessed

end MemorySystem

/-! ## One instruction -/

namespace InstructionExecutor

/-- The threads of the active lanes. -/
def activeThreads (warp : Warp) : List Thread :=
  (warp.threads.zipIdx.filter fun indexed =>
      warp.activeMask.getLsbD indexed.2).map Prod.fst

/-- The address that a thread accesses with a memory instruction. -/
def accessAddress
    (inst : Instruction)
    (thread : Thread) :
    Except SimError Nat :=
  effectiveAddress (if inst.opcode = .load then inst.src1 else inst.src2)
    inst thread

/-- The addresses that the active lanes access with a memory instruction. -/
def accessAddresses (inst : Instruction) (warp : Warp) : List Nat :=
  (activeThreads warp).filterMap fun thread =>
    (accessAddress inst thread).toOption

/-- The active lanes of a shared-memory instruction; none of any other. -/
def sharedLanes (inst : Instruction) (warp : Warp) : Nat :=
  if SM.isMemoryOpcode inst.opcode &&
      (accessAddresses inst warp).any MemorySystem.isShared then
    (activeThreads warp).length
  else
    0

/-- Gathering reads one value from each active thread, in order. -/
theorem gatherActive_ok
    {activeMask : ActiveMask}
    {body : Thread → Except SimError α}
    {lane : Nat}
    {threads : List Thread}
    {lanes : List (Nat × α)}
    (gathered : gatherActive activeMask body lane threads = .ok lanes) :
    List.Forall₂ (fun indexed value => body indexed.1 = .ok value.2)
      ((threads.zipIdx lane).filter fun indexed =>
        activeMask.getLsbD indexed.2)
      lanes := by
  induction threads generalizing lane lanes with
  | nil =>
      cases gathered
      exact .nil
  | cons thread rest inductionHypothesis =>
      obtain ⟨active, tested, later⟩ := except_bind_ok.mp gathered
      have isActive := ActiveMask.test_ok tested
      rw [List.zipIdx_cons, List.filter_cons]
      cases active with
      | false =>
          rw [if_neg (by rw [isActive]; exact Bool.false_ne_true)]
          exact inductionHypothesis later
      | true =>
          rw [if_pos isActive]
          obtain ⟨value, read, later⟩ := except_bind_ok.mp later
          obtain ⟨values, others, returned⟩ := except_bind_ok.mp later
          cases returned
          exact .cons read (inductionHypothesis others)

/-- Gathered lanes that accessed their addresses are the shared lanes. -/
theorem sharedLanes_gathered
    {inst : Instruction}
    {warp : Warp}
    {lanes : List (Nat × α)}
    {address : α → Nat}
    (isMemory : SM.isMemoryOpcode inst.opcode = true)
    (gathered :
      List.Forall₂
        (fun indexed value =>
          accessAddress inst indexed.1 = .ok (address value.2))
        (warp.threads.zipIdx.filter fun indexed =>
          warp.activeMask.getLsbD indexed.2)
        lanes) :
    MemorySystem.sharedLanes (lanes.map fun lane => address lane.2) =
      sharedLanes inst warp := by
  have addresses :
      accessAddresses inst warp = lanes.map fun lane => address lane.2 := by
    rw [accessAddresses, activeThreads, List.filterMap_map]
    generalize
      (warp.threads.zipIdx.filter fun indexed =>
        warp.activeMask.getLsbD indexed.2) = threads at gathered
    induction gathered with
    | nil => rfl
    | cons first _ inductionHypothesis =>
        rw [List.filterMap_cons_some, inductionHypothesis, List.map_cons]
        rw [Function.comp_apply, first]
        rfl
  have count :
      (activeThreads warp).length =
        (lanes.map fun lane => address lane.2).length := by
    rw [activeThreads, List.length_map, List.length_map,
      gathered.length_eq]
  rw [sharedLanes, isMemory, addresses, count, Bool.true_and]
  rfl

/-- What an executed instruction counts of the line accesses that it makes. -/
def InstructionServed
    (before : MemorySystem)
    (lanes : Nat)
    (result : ExecutionResult)
    (after : MemorySystem) : Prop :=
  ∃ tally,
    MemorySystem.Served before after tally ∧
      result.dirtyEvictions = tally.dirtyEvictions ∧
      result.memoryTransactions = tally.accesses + lanes

/-- An instruction that keeps the memory system counts nothing. -/
theorem InstructionServed.of_same
    {before after : MemorySystem}
    {result : ExecutionResult}
    (same : after = before)
    (noEvictions : result.dirtyEvictions = 0)
    (noTransactions : result.memoryTransactions = 0) :
    InstructionServed before 0 result after := by
  subst same
  exact
    ⟨.none, .of_sameCaches rfl rfl rfl, noEvictions, noTransactions⟩

theorem loadLanes_served
    {inst : Instruction}
    {lanes : List (Nat × Nat)}
    {before after : Warp × MemorySystem}
    {result : ExecutionResult}
    (ran : loadLanes inst lanes before = .ok result after) :
    InstructionServed before.2
      (MemorySystem.sharedLanes (lanes.map Prod.snd)) result after.2 := by
  cases lanes with
  | nil =>
      obtain ⟨rfl, rfl⟩ := state_pure_ok.mp ran
      exact .of_same rfl rfl rfl
  | cons first rest =>
      obtain ⟨⟨values, timing⟩, reached, performed, later⟩ :=
        state_bind_ok.mp ran
      obtain ⟨_, written, wrote, returned⟩ := state_bind_ok.mp later
      obtain ⟨_, loaded⟩ := onMemory_ok performed
      obtain ⟨threads, _, rfl⟩ := writeBack_ok wrote
      obtain ⟨rfl, rfl⟩ := state_pure_ok.mp returned
      obtain ⟨tally, served, evictions, transactions, _⟩ :=
        MemorySystem.warpLoad_served loaded
      exact ⟨tally, served, evictions, transactions⟩

theorem storeLanes_served
    {latencyOf : Nat → MemoryM (Nat × Nat)}
    {operation : List (Nat × Word) → MemoryM WarpMemoryResult}
    (operationServed :
      ∀ {accesses : List (Nat × Word)} {before after : MemorySystem}
        {timing : WarpMemoryResult},
        operation accesses before = .ok timing after →
        MemorySystem.WarpServed latencyOf (accesses.map Prod.fst) before
          timing after)
    {accesses : List (Nat × Word)}
    {before after : Warp × MemorySystem}
    {result : ExecutionResult}
    (ran : storeLanes operation accesses before = .ok result after) :
    InstructionServed before.2
      (MemorySystem.sharedLanes (accesses.map Prod.fst)) result after.2 := by
  cases accesses with
  | nil =>
      obtain ⟨rfl, rfl⟩ := state_pure_ok.mp ran
      exact .of_same rfl rfl rfl
  | cons first rest =>
      obtain ⟨timing, reached, performed, returned⟩ := state_bind_ok.mp ran
      obtain ⟨_, stored⟩ := onMemory_ok performed
      obtain ⟨rfl, rfl⟩ := state_pure_ok.mp returned
      obtain ⟨tally, served, evictions, transactions, _⟩ :=
        operationServed stored
      exact ⟨tally, served, evictions, transactions⟩

/-- Advancing keeps the memory system. -/
theorem advanceTo_memory
    {activeMask : ActiveMask}
    {pc : Nat}
    {before after : Warp × MemorySystem}
    {value : Unit}
    (ran : advanceTo activeMask pc before = .ok value after) :
    after.2 = before.2 := by
  obtain ⟨_, _, rfl⟩ := advanceTo_ok ran
  rfl

theorem executeLoad_served
    {inst : Instruction}
    (opcode : inst.opcode = .load)
    {before after : Warp × MemorySystem}
    {result : ExecutionResult}
    (ran : executeLoad inst before.1 before = .ok result after) :
    InstructionServed before.2 (sharedLanes inst before.1) result
      after.2 := by
  unfold executeLoad at ran
  obtain ⟨lanes, _, gathered, rest⟩ := state_bind_ok.mp ran
  obtain ⟨gathered, rfl⟩ := liftExcept_ok gathered
  obtain ⟨_, middle, loaded, rest⟩ := state_bind_ok.mp rest
  obtain ⟨_, final, advanced, returned⟩ := state_bind_ok.mp rest
  obtain ⟨rfl, rfl⟩ := state_pure_ok.mp returned
  have isMemory : SM.isMemoryOpcode inst.opcode = true := by
    rw [opcode]
    rfl
  have reads :=
    @sharedLanes_gathered Nat inst _ lanes id isMemory
      (by
        refine (gatherActive_ok gathered).imp fun indexed value isRead => ?_
        rw [accessAddress, if_pos opcode]
        exact isRead)
  rw [advanceTo_memory advanced, ← reads]
  exact loadLanes_served loaded

theorem executeStore_served
    {inst : Instruction}
    (opcode : inst.opcode = .store ∨ inst.opcode = .atomicAdd)
    {latencyOf : Nat → MemoryM (Nat × Nat)}
    {operation : List (Nat × Word) → MemoryM WarpMemoryResult}
    (operationServed :
      ∀ {accesses : List (Nat × Word)} {before after : MemorySystem}
        {timing : WarpMemoryResult},
        operation accesses before = .ok timing after →
        MemorySystem.WarpServed latencyOf (accesses.map Prod.fst) before
          timing after)
    {before after : Warp × MemorySystem}
    {result : ExecutionResult}
    (ran : executeStore operation inst before.1 before = .ok result after) :
    InstructionServed before.2 (sharedLanes inst before.1) result
      after.2 := by
  unfold executeStore at ran
  obtain ⟨lanes, _, gathered, rest⟩ := state_bind_ok.mp ran
  obtain ⟨gathered, rfl⟩ := liftExcept_ok gathered
  obtain ⟨_, middle, stored, rest⟩ := state_bind_ok.mp rest
  obtain ⟨_, final, advanced, returned⟩ := state_bind_ok.mp rest
  obtain ⟨rfl, rfl⟩ := state_pure_ok.mp returned
  have isMemory : SM.isMemoryOpcode inst.opcode = true := by
    rcases opcode with isStore | isAtomic
    · rw [isStore]
      rfl
    · rw [isAtomic]
      rfl
  have notLoad : inst.opcode ≠ .load := by
    rcases opcode with isStore | isAtomic
    · rw [isStore]
      exact Opcode.noConfusion
    · rw [isAtomic]
      exact Opcode.noConfusion
  have reads :=
    @sharedLanes_gathered (Nat × Word) inst _ lanes Prod.fst isMemory
      (by
        refine (gatherActive_ok gathered).imp fun indexed value isRead => ?_
        obtain ⟨address, isAddress, later⟩ := except_bind_ok.mp isRead
        obtain ⟨_, _, returned⟩ := except_bind_ok.mp later
        rw [accessAddress, if_neg notLoad, ← Except.ok.inj returned]
        exact isAddress)
  have served := storeLanes_served operationServed stored
  rw [List.map_map] at served
  rw [advanceTo_memory advanced, ← reads]
  exact served

/-- A computation that leaves the memory system alone. -/
def KeepsMemory (computation : ExecM α) : Prop :=
  ∀ (before after : Warp × MemorySystem) (value : α),
    computation before = .ok value after → after.2 = before.2

/-- An instruction that leaves the memory system alone and counts nothing. -/
def Quiet (computation : ExecM ExecutionResult) : Prop :=
  ∀ (before after : Warp × MemorySystem) (result : ExecutionResult),
    computation before = .ok result after →
    after.2 = before.2 ∧ result.dirtyEvictions = 0 ∧
      result.memoryTransactions = 0

theorem Quiet.bind
    {first : ExecM α}
    {next : α → ExecM ExecutionResult}
    (keeps : KeepsMemory first)
    (quiet : ∀ value, Quiet (next value)) :
    Quiet (first >>= next) := by
  intro before after result ran
  obtain ⟨value, middle, firstRan, nextRan⟩ := state_bind_ok.mp ran
  obtain ⟨same, counts⟩ := quiet value _ _ _ nextRan
  exact ⟨same.trans (keeps _ _ _ firstRan), counts⟩

theorem Quiet.pure
    {result : ExecutionResult}
    (noEvictions : result.dirtyEvictions = 0)
    (noTransactions : result.memoryTransactions = 0) :
    Quiet (pure result) := by
  intro before after other ran
  obtain ⟨rfl, rfl⟩ := state_pure_ok.mp ran
  exact ⟨rfl, noEvictions, noTransactions⟩

theorem Quiet.throw (error : SimError) :
    Quiet (throw error) := by
  intro before after result ran
  exact (state_throw_not_ok ran).elim

theorem KeepsMemory.advanceTo (activeMask : ActiveMask) (pc : Nat) :
    KeepsMemory (advanceTo activeMask pc) :=
  fun _ _ _ ran => advanceTo_memory ran

theorem KeepsMemory.lift (result : Except SimError α) :
    KeepsMemory (liftExcept result) := by
  intro before after value ran
  obtain ⟨_, rfl⟩ := liftExcept_ok ran
  rfl

theorem KeepsMemory.modifyWarp (update : Warp → Warp) :
    KeepsMemory (modifyWarp update) := by
  intro before after value ran
  rw [← state_modify_ok.mp ran]

theorem executeThreads_quiet
    (warp : Warp)
    (body : Thread → Except SimError Thread) :
    Quiet (executeThreads warp body) := by
  refine .bind ?_ fun _ => .bind (.advanceTo _ _) fun _ => .pure rfl rfl
  intro before after value ran
  obtain ⟨_, _, rfl⟩ := forActiveThreads_ok ran
  rfl

theorem executeBranch_quiet
    (inst : Instruction)
    (warp : Warp) :
    Quiet (executeBranch inst warp) := by
  refine .bind (.lift _) fun taken => ?_
  split
  · exact .bind (.advanceTo _ _) fun _ => .pure rfl rfl
  · split
    · exact .bind (.advanceTo _ _) fun _ => .pure rfl rfl
    · exact
        .bind (.modifyWarp _) fun _ =>
          .bind (.advanceTo _ _) fun _ => .pure rfl rfl

theorem executeSsy_quiet
    (inst : Instruction)
    (warp : Warp) :
    Quiet (executeSsy inst warp) :=
  .bind (.modifyWarp _) fun _ =>
    .bind (.advanceTo _ _) fun _ => .pure rfl rfl

theorem executeSync_quiet (warp : Warp) : Quiet (executeSync warp) := by
  unfold executeSync
  split
  · exact .throw _
  · exact
      .bind (.modifyWarp _) fun _ =>
        .bind (.advanceTo _ _) fun _ => .pure rfl rfl

theorem executeBarrier_quiet (warp : Warp) : Quiet (executeBarrier warp) := by
  unfold executeBarrier
  split
  · exact .throw _
  · exact .bind (.advanceTo _ _) fun _ => .pure rfl rfl

/-- Only the three memory opcodes touch the memory system. -/
theorem executeOpcode_quiet
    {inst : Instruction}
    (notMemory : SM.isMemoryOpcode inst.opcode = false)
    (warp : Warp) :
    Quiet (executeOpcode inst warp) := by
  unfold executeOpcode
  cases opcode : inst.opcode with
  | add | sub | mul | mov | cmp => exact executeThreads_quiet _ _
  | load | store | atomicAdd =>
      rw [opcode] at notMemory
      cases notMemory
  | branch => exact executeBranch_quiet inst warp
  | ssy => exact executeSsy_quiet inst warp
  | sync => exact executeSync_quiet warp
  | barrier => exact executeBarrier_quiet warp
  | unknown => exact .throw _

/-- The line accesses of every instruction that executes. -/
theorem execute_served
    {inst : Instruction}
    {before after : Warp × MemorySystem}
    {result : ExecutionResult}
    (ran : execute inst before = .ok result after) :
    InstructionServed before.2 (sharedLanes inst before.1) result
      after.2 := by
  by_cases isMemory : SM.isMemoryOpcode inst.opcode = true
  · rw [SM.isMemoryOpcode, Bool.or_eq_true, Bool.or_eq_true, beq_iff_eq,
      beq_iff_eq, beq_iff_eq] at isMemory
    rcases isMemory with (opcode | opcode) | opcode
    · simp only [execute_eq, executeOpcode, opcode] at ran
      exact executeLoad_served opcode ran
    · simp only [execute_eq, executeOpcode, opcode] at ran
      exact
        executeStore_served (Or.inl opcode) MemorySystem.warpStore_served
          ran
    · simp only [execute_eq, executeOpcode, opcode] at ran
      exact
        executeStore_served (Or.inr opcode)
          MemorySystem.warpAtomicAdd_served ran
  · rw [Bool.not_eq_true] at isMemory
    obtain ⟨same, noEvictions, noTransactions⟩ :=
      executeOpcode_quiet isMemory before.1 _ _ _ ran
    rw [sharedLanes, isMemory, Bool.false_and]
    exact .of_same same noEvictions noTransactions

/-- Only memory instructions count transactions. -/
theorem transactions_of_not_memory
    {inst : Instruction}
    {before after : Warp × MemorySystem}
    {result : ExecutionResult}
    (notMemory : SM.isMemoryOpcode inst.opcode = false)
    (ran : execute inst before = .ok result after) :
    result.memoryTransactions = 0 :=
  (executeOpcode_quiet notMemory before.1 _ _ _ ran).2.2

end InstructionExecutor

end SimSm
