import SimSm.Instruction

namespace SimSm

/-!
# Set-associative caches and replacement policies

The write-allocate, write-back cache of both hierarchy levels.  Caches carry
tags and statistics only, never data.  The random policy's generator is an
arbitrary stream of draws, reduced to the range of the uniform distribution.
-/

/-- One cache line. -/
structure CacheLine where
  valid : Bool := false
  tag : Nat := 0
  dirty : Bool := false
  deriving Repr, DecidableEq

/-- The first line that is not valid, which every policy fills first. -/
def firstInvalid? (lines : List CacheLine) : Option Nat :=
  lines.findIdx? fun line => !line.valid

/-- Least recently used; the head of the list is the most recent way. -/
structure LRUPolicy where
  lruList : List Nat
  deriving Repr, DecidableEq

namespace LRUPolicy

/-- Ways `0 .. associativity - 1` in order. -/
def new (associativity : Nat) : LRUPolicy where
  lruList := List.range associativity

/-- An invalid way, else the back of the recency list. -/
def chooseVictim
    (policy : LRUPolicy)
    (lines : List CacheLine) :
    Except SimError (Nat × LRUPolicy) :=
  match policy.lruList.getLast? with
  | none => .error .lruListEmpty
  | some leastRecent =>
      match firstInvalid? lines with
      | some way => .ok (way, policy)
      | none => .ok (leastRecent, policy)

/-- Move an accessed way to the front. -/
def onAccess (policy : LRUPolicy) (way : Nat) : LRUPolicy :=
  if way ∈ policy.lruList then
    { lruList := way :: policy.lruList.erase way }
  else
    policy

end LRUPolicy

/-- First in, first out; the head of the queue is the oldest way. -/
structure FIFOPolicy where
  fifoQueue : List Nat
  inQueue : List Bool
  deriving Repr, DecidableEq

namespace FIFOPolicy

/-- An empty queue over `associativity` ways. -/
def new (associativity : Nat) : FIFOPolicy where
  fifoQueue := []
  inQueue := List.replicate associativity false

/-- An invalid way, else the front of the queue, which leaves it. -/
def chooseVictim
    (policy : FIFOPolicy)
    (lines : List CacheLine) :
    Except SimError (Nat × FIFOPolicy) :=
  match firstInvalid? lines with
  | some way => .ok (way, policy)
  | none =>
      match policy.fifoQueue with
      | [] => .error .fifoQueueEmpty
      | victim :: rest =>
          .ok (victim,
            { fifoQueue := rest
              inQueue := policy.inQueue.set victim false })

/-- Enqueue a way that is not queued yet; a hit keeps its age. -/
def onAccess (policy : FIFOPolicy) (way : Nat) : FIFOPolicy :=
  if policy.inQueue.getD way false then
    policy
  else
    { fifoQueue := policy.fifoQueue ++ [way]
      inQueue := policy.inQueue.set way true }

end FIFOPolicy

/-- Random replacement: `choice draws` is the generator's next raw draw. -/
structure RandomPolicy where
  choice : Nat → Nat
  draws : Nat

namespace RandomPolicy

/-- A fresh generator. -/
def new (choice : Nat → Nat) : RandomPolicy where
  choice := choice
  draws := 0

/-- An invalid way, else a uniformly drawn one. -/
def chooseVictim
    (policy : RandomPolicy)
    (lines : List CacheLine) :
    Except SimError (Nat × RandomPolicy) :=
  if lines.isEmpty then
    .error .cacheSetEmpty
  else
    match firstInvalid? lines with
    | some way => .ok (way, policy)
    | none =>
        .ok (policy.choice policy.draws % lines.length,
          { policy with draws := policy.draws + 1 })

end RandomPolicy

/-- The replacement policy of one cache set. -/
inductive ReplacementPolicy where
  | lru (policy : LRUPolicy)
  | fifo (policy : FIFOPolicy)
  | random (policy : RandomPolicy)

namespace ReplacementPolicy

/-- Build the policy a cache is configured with by name. -/
def new
    (associativity : Nat)
    (policyName : String)
    (choice : Nat → Nat) :
    Except SimError ReplacementPolicy :=
  if policyName = "LRU" then
    .ok (.lru (LRUPolicy.new associativity))
  else if policyName = "FIFO" then
    .ok (.fifo (FIFOPolicy.new associativity))
  else if policyName = "Random" then
    .ok (.random (RandomPolicy.new choice))
  else
    .error (.unsupportedReplacementPolicy policyName)

/-- Choose the way to replace in a set. -/
def chooseVictim
    (policy : ReplacementPolicy)
    (lines : List CacheLine) :
    Except SimError (Nat × ReplacementPolicy) :=
  match policy with
  | .lru inner =>
      (inner.chooseVictim lines).map fun chosen => (chosen.1, .lru chosen.2)
  | .fifo inner =>
      (inner.chooseVictim lines).map fun chosen => (chosen.1, .fifo chosen.2)
  | .random inner =>
      (inner.chooseVictim lines).map fun chosen => (chosen.1, .random chosen.2)

/-- Record an access to a way; the random policy keeps no record. -/
def onAccess (policy : ReplacementPolicy) (way : Nat) : ReplacementPolicy :=
  match policy with
  | .lru inner => .lru (inner.onAccess way)
  | .fifo inner => .fifo (inner.onAccess way)
  | .random inner => .random inner

end ReplacementPolicy

/-- What one access did. -/
structure CacheAccessResult where
  hit : Bool := false
  eviction : Bool := false
  dirtyEviction : Bool := false
  deriving Repr, DecidableEq

/-- Statistics of one cache. -/
structure CacheStats where
  accesses : Nat := 0
  hits : Nat := 0
  misses : Nat := 0
  evictions : Nat := 0
  dirtyEvictions : Nat := 0
  deriving Repr, DecidableEq

/-- A set-associative cache. -/
structure Cache where
  numSets : Nat
  associativity : Nat
  lineSize : Nat
  stats : CacheStats
  sets : List (List CacheLine)
  policies : List ReplacementPolicy

/-- Cache operations: the state survives an exception. -/
abbrev CacheM := EStateM SimError Cache

namespace Cache

/--
Build an empty cache.  `rng` gives each set's random policy its own stream of
draws.
-/
def new
    (numSets associativity lineSize : Nat)
    (policyName : String)
    (rng : Nat → Nat → Nat) :
    Except SimError Cache :=
  if numSets = 0 ∨ associativity = 0 ∨ lineSize = 0 then
    .error .cacheDimensions
  else
    ((List.range numSets).mapM fun set =>
        ReplacementPolicy.new associativity policyName (rng set)).map
      fun policies =>
        { numSets := numSets
          associativity := associativity
          lineSize := lineSize
          stats := {}
          sets :=
            List.replicate numSets (List.replicate associativity {})
          policies := policies }

/-- The set an address maps to. -/
def setIndex (cache : Cache) (address : Nat) : Nat :=
  address / cache.lineSize % cache.numSets

/-- The tag an address is stored under. -/
def tagOf (cache : Cache) (address : Nat) : Nat :=
  address / cache.lineSize / cache.numSets

/-- The way of a set that holds a tag. -/
def findHit? (lines : List CacheLine) (tag : Nat) : Option Nat :=
  lines.findIdx? fun line => line.valid && line.tag == tag

/-- Look an address up; on a miss, replace a line of its set by it. -/
def lookupAndFill (address : Nat) (isWrite : Bool) : CacheM CacheAccessResult :=
  fun cache =>
    let setIndex := cache.setIndex address
    let tag := cache.tagOf address
    let stats := { cache.stats with accesses := cache.stats.accesses + 1 }
    let lines := cache.sets.getD setIndex []
    match cache.policies[setIndex]? with
    -- A cache built by `new` has one policy per set.
    | none => .error .cacheDimensions cache
    | some policy =>
        match findHit? lines tag with
        | some way =>
            .ok { hit := true }
              { cache with
                stats := { stats with hits := stats.hits + 1 }
                sets :=
                  cache.sets.set setIndex
                    (lines.modify way fun line =>
                      { line with dirty := isWrite || line.dirty })
                policies :=
                  cache.policies.set setIndex (policy.onAccess way) }
        | none =>
            let stats := { stats with misses := stats.misses + 1 }
            match policy.chooseVictim lines with
            | .error error => .error error { cache with stats := stats }
            | .ok (victimWay, policy) =>
                let victim := lines.getD victimWay {}
                let eviction := victim.valid
                let dirtyEviction := victim.valid && victim.dirty
                .ok { eviction := eviction, dirtyEviction := dirtyEviction }
                  { cache with
                    stats :=
                      { stats with
                        evictions :=
                          stats.evictions + eviction.toNat
                        dirtyEvictions :=
                          stats.dirtyEvictions + dirtyEviction.toNat }
                    sets :=
                      cache.sets.set setIndex
                        (lines.set victimWay
                          { valid := true, tag := tag, dirty := isWrite })
                    policies :=
                      cache.policies.set setIndex
                        (policy.onAccess victimWay) }

/-- A lookup that hits records its use of the way. -/
theorem lookupAndFill_hit
    {cache : Cache}
    {address way : Nat}
    {policy : ReplacementPolicy}
    (isPolicy : cache.policies[cache.setIndex address]? = some policy)
    (found :
      findHit? (cache.sets.getD (cache.setIndex address) [])
        (cache.tagOf address) = some way)
    (isWrite : Bool) :
    lookupAndFill address isWrite cache =
      .ok { hit := true }
        { cache with
          stats :=
            { cache.stats with
              accesses := cache.stats.accesses + 1
              hits := cache.stats.hits + 1 }
          sets :=
            cache.sets.set (cache.setIndex address)
              ((cache.sets.getD (cache.setIndex address) []).modify way
                fun line => { line with dirty := isWrite || line.dirty })
          policies :=
            cache.policies.set (cache.setIndex address)
              (policy.onAccess way) } := by
  simp only [lookupAndFill, isPolicy, found]

/-- A lookup that misses replaces the victim of the policy. -/
theorem lookupAndFill_miss
    {cache : Cache}
    {address way : Nat}
    {policy chosen : ReplacementPolicy}
    (isPolicy : cache.policies[cache.setIndex address]? = some policy)
    (missed :
      findHit? (cache.sets.getD (cache.setIndex address) [])
        (cache.tagOf address) = none)
    (isVictim :
      policy.chooseVictim (cache.sets.getD (cache.setIndex address) []) =
        .ok (way, chosen))
    (isWrite : Bool) :
    lookupAndFill address isWrite cache =
      let lines := cache.sets.getD (cache.setIndex address) []
      let victim := lines.getD way {}
      .ok
        { eviction := victim.valid
          dirtyEviction := victim.valid && victim.dirty }
        { cache with
          stats :=
            { cache.stats with
              accesses := cache.stats.accesses + 1
              misses := cache.stats.misses + 1
              evictions := cache.stats.evictions + victim.valid.toNat
              dirtyEvictions :=
                cache.stats.dirtyEvictions +
                  (victim.valid && victim.dirty).toNat }
          sets :=
            cache.sets.set (cache.setIndex address)
              (lines.set way
                { valid := true
                  tag := cache.tagOf address
                  dirty := isWrite })
          policies :=
            cache.policies.set (cache.setIndex address)
              (chosen.onAccess way) } := by
  simp only [lookupAndFill, isPolicy, missed, isVictim]

/-- A read access. -/
def access (address : Nat) : CacheM CacheAccessResult :=
  lookupAndFill address false

/-- A write access, which leaves the line dirty. -/
def write (address : Nat) : CacheM CacheAccessResult :=
  lookupAndFill address true

end Cache

end SimSm
