import Mathlib.Algebra.BigOperators.Group.List.Basic
import Mathlib.Data.List.GetD
import SimSm.Fifo

namespace SimSm

/-!
# The ledger of a cache

Under every policy, a lookup places its line in one way and books what it did.
Residence, dirtiness and the statistics of a cache follow from that.
-/

namespace CacheLedger

open Lru (Request lineOf EverySet performAll)
open Fifo (Log)

/-- The line in a way of a set. -/
def lineAt (cache : Cache) (set way : Nat) : CacheLine :=
  (cache.sets.getD set []).getD way {}

/-- A set that its policy, whichever it is, can serve. -/
def Serviceable
    (numSets associativity set : Nat)
    (lines : List CacheLine)
    (policy : ReplacementPolicy) : Prop :=
  lines.length = associativity ∧
    ((∃ keys,
        Lru.SetFollows numSets associativity set lines policy keys) ∨
      (∃ keys, Fifo.Queued numSets associativity set lines policy keys) ∨
      ∃ inner, policy = .random inner)

section Policies

variable {numSets associativity set tag way : Nat}
variable {lines : List CacheLine}
variable {policy : ReplacementPolicy}

/-- A hit keeps a set serviceable. -/
theorem Serviceable.hit
    (serviceable : Serviceable numSets associativity set lines policy)
    (found : Cache.findHit? lines tag = some way)
    (isWrite : Bool) :
    Serviceable numSets associativity set
      (lines.modify way fun line =>
        { line with dirty := isWrite || line.dirty })
      (policy.onAccess way) := by
  obtain ⟨length, kinds⟩ := serviceable
  refine ⟨by rw [List.length_modify, length], ?_⟩
  rcases kinds with ⟨keys, follows⟩ | ⟨keys, queued⟩ | ⟨inner, rfl⟩
  · exact Or.inl ⟨_, (follows.hit found isWrite).2⟩
  · obtain ⟨_, sameQueue, kept⟩ := queued.hit found isWrite
    rw [sameQueue]
    exact Or.inr (Or.inl ⟨keys, kept⟩)
  · exact Or.inr (Or.inr ⟨inner, rfl⟩)

/-- The random policy finds a victim in every set that has a way. -/
theorem random_chooseVictim
    (inner : RandomPolicy)
    (positive : 0 < lines.length) :
    ∃ way chosen,
      (ReplacementPolicy.random inner).chooseVictim lines =
          .ok (way, .random chosen) ∧
        way < lines.length := by
  have notEmpty : ¬ lines.isEmpty = true := by
    rw [List.isEmpty_iff]
    exact List.ne_nil_of_length_pos positive
  rw [ReplacementPolicy.chooseVictim, RandomPolicy.chooseVictim,
    if_neg notEmpty]
  cases invalid : firstInvalid? lines with
  | some way =>
      obtain ⟨inside, _⟩ := List.findIdx?_eq_some_iff_getElem.mp invalid
      exact ⟨way, inner, rfl, inside⟩
  | none =>
      exact
        ⟨inner.choice inner.draws % lines.length,
          { inner with draws := inner.draws + 1 }, rfl,
          Nat.mod_lt _ positive⟩

/-- On a miss the policy finds a victim, and the set stays serviceable. -/
theorem Serviceable.miss
    (serviceable : Serviceable numSets associativity set lines policy)
    (positiveSets : 0 < numSets)
    (positive : 0 < associativity)
    (missed : Cache.findHit? lines tag = none)
    (isWrite : Bool) :
    ∃ way chosen,
      policy.chooseVictim lines = .ok (way, chosen) ∧
        way < associativity ∧
        Serviceable numSets associativity set
          (lines.set way { valid := true, tag := tag, dirty := isWrite })
          (chosen.onAccess way) := by
  obtain ⟨rfl, kinds⟩ := serviceable
  rcases kinds with ⟨keys, follows⟩ | ⟨keys, queued⟩ | ⟨inner, rfl⟩
  · obtain ⟨_, way, chosen, isVictim, inside, written⟩ :=
      follows.miss positiveSets positive missed isWrite
    exact
      ⟨way, chosen, isVictim, inside, List.length_set,
        Or.inl ⟨_, written⟩⟩
  · obtain ⟨_, way, chosen, isVictim, inside, written⟩ :=
      queued.miss positiveSets positive missed isWrite
    exact
      ⟨way, chosen, isVictim, inside, List.length_set,
        Or.inr (Or.inl ⟨_, written⟩)⟩
  · obtain ⟨way, chosen, isVictim, inside⟩ :=
      random_chooseVictim inner positive
    exact
      ⟨way, .random chosen, isVictim, inside, List.length_set,
        Or.inr (Or.inr ⟨chosen, rfl⟩)⟩

end Policies

/-- Every set of a cache is serviceable. -/
def Sound (cache : Cache) : Prop :=
  EverySet (Serviceable cache.numSets cache.associativity) cache

/-- The supported policies serve fresh sets. -/
theorem fresh_serviceable
    (numSets associativity : Nat)
    {policyName : String}
    (supported :
      policyName = "LRU" ∨ policyName = "FIFO" ∨ policyName = "Random")
    (rng : Nat → Nat → Nat) :
    ∃ fresh : Nat → ReplacementPolicy,
      (∀ set,
        ReplacementPolicy.new associativity policyName (rng set) =
          .ok (fresh set)) ∧
        ∀ set,
          Serviceable numSets associativity set
            (List.replicate associativity {}) (fresh set) := by
  rcases supported with rfl | rfl | rfl
  · exact
      ⟨fun _ => .lru (LRUPolicy.new associativity), fun _ => rfl,
        fun set =>
          ⟨List.length_replicate,
            Or.inl
              ⟨[], [], List.range associativity, rfl,
                Lru.arranged_new _ _ set⟩⟩⟩
  · exact
      ⟨fun _ => .fifo (FIFOPolicy.new associativity), fun _ => rfl,
        fun set =>
          ⟨List.length_replicate,
            Or.inr (Or.inl ⟨[], Fifo.queued_new _ _ set⟩)⟩⟩
  · exact
      ⟨fun set => .random (RandomPolicy.new (rng set)), fun _ => rfl,
        fun set => ⟨List.length_replicate, Or.inr (Or.inr ⟨_, rfl⟩)⟩⟩

/-- A fresh cache of a supported policy is sound. -/
theorem sound_new
    {numSets associativity lineSize : Nat}
    {policyName : String}
    (dimensions : 0 < numSets ∧ 0 < associativity ∧ 0 < lineSize)
    (supported :
      policyName = "LRU" ∨ policyName = "FIFO" ∨ policyName = "Random")
    (rng : Nat → Nat → Nat) :
    ∃ cache,
      Cache.new numSets associativity lineSize policyName rng = .ok cache ∧
        Sound cache ∧
        (∀ set way, lineAt cache set way = {}) ∧
        cache.numSets = numSets ∧
        cache.associativity = associativity ∧
        cache.lineSize = lineSize ∧
        cache.stats = {} := by
  obtain ⟨fresh, isFresh, serviceable⟩ :=
    fresh_serviceable numSets associativity supported rng
  obtain ⟨cache, built, every, rfl, rfl, rfl, noStats⟩ :=
    Lru.everySet_new dimensions isFresh
  refine
    ⟨cache, built, every.mono ?_, fun set way => ?_, rfl, rfl, rfl, noStats⟩
  · rintro set lines policy ⟨rfl, rfl⟩
    exact serviceable set
  · rw [lineAt]
    by_cases inside : set < cache.numSets
    · obtain ⟨policy, _, isEmpty, _⟩ := every.every set inside
      rw [isEmpty, List.getD_eq_getElem?_getD, List.getElem?_replicate]
      split
      · rfl
      · rfl
    · have outside : cache.sets.getD set [] = [] :=
        List.getD_eq_default _ _ (every.sets ▸ Nat.not_lt.mp inside)
      rw [outside]
      rfl

/-- Whether a request finds its line there and dirty. -/
def findsDirty (cache : Cache) (request : Request) : Bool :=
  (Cache.findHit?
      (cache.sets.getD (cache.setIndex request.address) [])
      (cache.tagOf request.address)).any
    fun way =>
      (lineAt cache (cache.setIndex request.address) way).dirty

/-- The line of a request, dirty if it is written or was dirty. -/
def placedLine (cache : Cache) (request : Request) : CacheLine where
  valid := true
  tag := cache.tagOf request.address
  dirty := request.isWrite || findsDirty cache request

/--
What a lookup does: its line is in one way afterwards, and the statistics book
what was there.
-/
structure Placed
    (cache : Cache)
    (request : Request)
    (result : CacheAccessResult)
    (way : Nat)
    (after : Cache) : Prop where
  inside : way < cache.associativity
  lookup :
    Cache.findHit?
        (cache.sets.getD (cache.setIndex request.address) [])
        (cache.tagOf request.address) =
      if result.hit then some way else none
  numSets : after.numSets = cache.numSets
  associativity : after.associativity = cache.associativity
  lineSize : after.lineSize = cache.lineSize
  sets :
    after.sets =
      cache.sets.set (cache.setIndex request.address)
        ((cache.sets.getD (cache.setIndex request.address) []).set way
          (placedLine cache request))
  stats :
    after.stats =
      { accesses := cache.stats.accesses + 1
        hits := cache.stats.hits + result.hit.toNat
        misses := cache.stats.misses + (!result.hit).toNat
        evictions :=
          cache.stats.evictions +
            (!result.hit &&
              (lineAt cache (cache.setIndex request.address)
                way).valid).toNat
        dirtyEvictions :=
          cache.stats.dirtyEvictions +
            (!result.hit &&
              ((lineAt cache (cache.setIndex request.address) way).valid &&
                (lineAt cache (cache.setIndex request.address)
                  way).dirty)).toNat }

/-- The set of a request is one of the cache's. -/
theorem setIndex_lt
    {cache : Cache}
    (positiveSets : 0 < cache.numSets)
    (request : Request) :
    cache.setIndex request.address < cache.numSets :=
  Nat.mod_lt _ positiveSets

/-- Every set has as many ways as the cache. -/
theorem Sound.length_set
    {cache : Cache}
    (sound : Sound cache)
    {set : Nat}
    (inside : set < cache.numSets) :
    (cache.sets.getD set []).length = cache.associativity := by
  obtain ⟨_, _, serviceable⟩ := sound.every set inside
  exact serviceable.1

section Lookup

variable {lines : List CacheLine}
variable {tag way : Nat}

/-- A lookup finds a valid line with its tag. -/
theorem findHit?_found
    (found : Cache.findHit? lines tag = some way) :
    way < lines.length ∧
      (lines.getD way {}).valid = true ∧ (lines.getD way {}).tag = tag := by
  obtain ⟨inside, passes, _⟩ :=
    List.findIdx?_eq_some_iff_getElem.mp found
  rw [Bool.and_eq_true, beq_iff_eq] at passes
  rw [List.getD_eq_getElem _ _ inside]
  exact ⟨inside, passes⟩

/-- A lookup that finds nothing has passed every valid line. -/
theorem findHit?_missing
    {associativity : Nat}
    (length : lines.length = associativity)
    (missing : Cache.findHit? lines tag = none) :
    ∀ other < associativity,
      (lines.getD other {}).valid = true →
      (lines.getD other {}).tag ≠ tag := by
  rintro other inside valid rfl
  rw [← length] at inside
  have passed :=
    List.findIdx?_eq_none_iff.mp missing lines[other]
      (List.getElem_mem inside)
  rw [List.getD_eq_getElem _ _ inside] at valid passed
  rw [valid, beq_self_eq_true] at passed
  cases passed

/-- Marking the line found is placing it once more. -/
theorem modify_found
    (inside : way < lines.length)
    (found :
      (lines.getD way {}).valid = true ∧ (lines.getD way {}).tag = tag)
    {isWrite : Bool} :
    (lines.modify way fun line =>
        { line with dirty := isWrite || line.dirty }) =
      lines.set way
        { valid := true
          tag := tag
          dirty := isWrite || (lines.getD way {}).dirty } := by
  rw [List.getD_eq_getElem _ _ inside] at found ⊢
  rw [List.modify_eq_set_get _ inside, ← found.1, ← found.2]
  rfl

end Lookup

/-- A request to a sound cache succeeds and places its line. -/
theorem Sound.perform
    {cache : Cache}
    (sound : Sound cache)
    (positiveSets : 0 < cache.numSets)
    (positive : 0 < cache.associativity)
    (request : Request) :
    ∃ result way after,
      request.perform cache = .ok result after ∧
        Placed cache request result way after ∧
        Sound after := by
  obtain ⟨policy, isPolicy, serviceable⟩ :=
    sound.every _ (setIndex_lt positiveSets request)
  have length := serviceable.1
  rw [request.perform_eq]
  cases found :
      Cache.findHit? (cache.sets.getD (cache.setIndex request.address) [])
        (cache.tagOf request.address) with
  | some way =>
      obtain ⟨wayInside, isFound⟩ := findHit?_found found
      have marked := serviceable.hit found request.isWrite
      rw [modify_found wayInside isFound] at marked
      refine
        ⟨_, way, _, Cache.lookupAndFill_hit isPolicy found request.isWrite,
          ?_, ?_⟩
      · refine
          ⟨length ▸ wayInside, by rw [found]; rfl, rfl, rfl, rfl, ?_, rfl⟩
        rw [modify_found wayInside isFound, placedLine, findsDirty, found]
        rfl
      · exact
          sound.replace marked (fun _ _ _ _ holds => holds) rfl
            (by rw [modify_found wayInside isFound]) rfl
  | none =>
      obtain ⟨way, chosen, isVictim, wayInside, written⟩ :=
        serviceable.miss positiveSets positive found request.isWrite
      refine
        ⟨_, way, _,
          Cache.lookupAndFill_miss isPolicy found isVictim request.isWrite,
          ?_, ?_⟩
      · refine
          ⟨wayInside, by rw [found]; rfl, rfl, rfl, rfl, ?_, rfl⟩
        rw [placedLine, findsDirty, found, Option.any_none, Bool.or_false]
      · exact sound.replace written (fun _ _ _ _ holds => holds) rfl rfl rfl

section Placed

variable {cache after : Cache}
variable {request : Request}
variable {result : CacheAccessResult}
variable {way : Nat}

/-- Only the line in that way changes. -/
theorem Placed.lineAt_after
    (placed : Placed cache request result way after)
    (sound : Sound cache)
    (positiveSets : 0 < cache.numSets)
    (set other : Nat) :
    lineAt after set other =
      if set = cache.setIndex request.address ∧ other = way then
        placedLine cache request
      else
        lineAt cache set other := by
  have inside := setIndex_lt positiveSets request
  rw [lineAt, placed.sets, Lru.getD_set (sound.sets ▸ inside)]
  by_cases sameSet : set = cache.setIndex request.address
  · subst sameSet
    rw [if_pos rfl, Lru.getD_set (sound.length_set inside ▸ placed.inside)]
    simp only [true_and]
    rfl
  · rw [if_neg sameSet, if_neg (fun same => sameSet same.1)]
    rfl

/-- On a hit the line was in that way. -/
theorem Placed.found
    (placed : Placed cache request result way after)
    (hit : result.hit = true) :
    (lineAt cache (cache.setIndex request.address) way).valid = true ∧
      (lineAt cache (cache.setIndex request.address) way).tag =
        cache.tagOf request.address := by
  have lookup := placed.lookup
  rw [if_pos hit] at lookup
  exact (findHit?_found lookup).2

/-- On a miss it was in no way. -/
theorem Placed.missed
    (placed : Placed cache request result way after)
    (sound : Sound cache)
    (positiveSets : 0 < cache.numSets)
    (miss : result.hit = false) :
    ∀ other < cache.associativity,
      (lineAt cache (cache.setIndex request.address) other).valid = true →
      (lineAt cache (cache.setIndex request.address) other).tag ≠
        cache.tagOf request.address := by
  have inside := setIndex_lt positiveSets request
  have lookup := placed.lookup
  rw [if_neg (miss ▸ Bool.false_ne_true)] at lookup
  exact findHit?_missing (sound.length_set inside) lookup

/-- A line is found dirty on a hit of a dirty way. -/
theorem Placed.findsDirty_eq
    (placed : Placed cache request result way after) :
    findsDirty cache request =
      (result.hit &&
        (lineAt cache (cache.setIndex request.address) way).dirty) := by
  rw [findsDirty, placed.lookup]
  cases result.hit with
  | false => rfl
  | true => rfl

end Placed

/-! ## Counting lines -/

/-- The lines of a cache that pass a test. -/
def countLines (test : CacheLine → Bool) (sets : List (List CacheLine)) :
    Nat :=
  (sets.map fun lines => lines.countP test).sum

/-- No line of an empty cache passes a test that empty lines fail. -/
theorem countLines_empty
    {cache : Cache}
    {test : CacheLine → Bool}
    (empty : ∀ set way, lineAt cache set way = {})
    (fails : test {} = false) :
    countLines test cache.sets = 0 := by
  refine List.sum_eq_zero fun count member => ?_
  obtain ⟨lines, isSet, rfl⟩ := List.mem_map.mp member
  obtain ⟨set, setInside, rfl⟩ := List.mem_iff_getElem.mp isSet
  rw [List.countP_eq_zero]
  intro line isLine
  obtain ⟨way, wayInside, rfl⟩ := List.mem_iff_getElem.mp isLine
  have isEmpty := empty set way
  rw [lineAt, List.getD_eq_getElem _ _ setInside,
    List.getD_eq_getElem _ _ wayInside] at isEmpty
  rw [isEmpty, fails]
  exact Bool.false_ne_true

/-- Exchanging one line exchanges its count. -/
theorem countP_set_add
    {test : CacheLine → Bool}
    {lines : List CacheLine}
    {way : Nat}
    (inside : way < lines.length)
    (line : CacheLine) :
    (lines.set way line).countP test + (test (lines.getD way {})).toNat =
      lines.countP test + (test line).toNat := by
  induction lines generalizing way with
  | nil => cases inside
  | cons head rest inductionHypothesis =>
      cases way with
      | zero =>
          rw [List.set_cons_zero, List.countP_cons, List.countP_cons,
            List.getD_cons_zero]
          cases test head <;> cases test line <;> simp
      | succ way =>
          have others := inductionHypothesis (Nat.lt_of_succ_lt_succ inside)
          rw [List.set_cons_succ, List.countP_cons, List.countP_cons,
            List.getD_cons_succ]
          omega

/-- Exchanging one set exchanges its sum. -/
theorem sum_set_add
    {counts : List Nat}
    {set : Nat}
    (inside : set < counts.length)
    (count : Nat) :
    (counts.set set count).sum + counts.getD set 0 = counts.sum + count := by
  induction counts generalizing set with
  | nil => cases inside
  | cons head rest inductionHypothesis =>
      cases set with
      | zero =>
          rw [List.set_cons_zero, List.sum_cons, List.sum_cons,
            List.getD_cons_zero]
          omega
      | succ set =>
          have others := inductionHypothesis (Nat.lt_of_succ_lt_succ inside)
          rw [List.set_cons_succ, List.sum_cons, List.sum_cons,
            List.getD_cons_succ]
          omega

/-- Placing a line exchanges one line of the cache. -/
theorem Placed.countLines_add
    {cache after : Cache}
    {request : Request}
    {result : CacheAccessResult}
    {way : Nat}
    (placed : Placed cache request result way after)
    (sound : Sound cache)
    (positiveSets : 0 < cache.numSets)
    (test : CacheLine → Bool) :
    countLines test after.sets +
        (test
          (lineAt cache (cache.setIndex request.address) way)).toNat =
      countLines test cache.sets +
        (test (placedLine cache request)).toNat := by
  have inside := setIndex_lt positiveSets request
  have setInside :
      cache.setIndex request.address <
        (cache.sets.map fun lines => lines.countP test).length := by
    rw [List.length_map, sound.sets]
    exact inside
  have ofSet :=
    sum_set_add setInside
      (((cache.sets.getD (cache.setIndex request.address) []).set way
        (placedLine cache request)).countP test)
  have ofWay :=
    @countP_set_add test _ way (sound.length_set inside ▸ placed.inside)
      (placedLine cache request)
  have sameCount :
      (cache.sets.map fun lines => lines.countP test).getD
          (cache.setIndex request.address) 0 =
        (cache.sets.getD (cache.setIndex request.address) []).countP test :=
    List.getD_map cache.sets [] (List.countP test)
  rw [countLines, placed.sets, List.map_set, lineAt]
  rw [sameCount] at ofSet
  rw [countLines]
  omega

/-! ## Writes since a fill -/

/-- The part of a log from the last fill of a line on. -/
def SinceFill
    (lineSize : Nat)
    (log : Log)
    (line : Nat)
    (since : Log) : Prop :=
  ∃ before fill rest,
    log = before ++ since ∧
      since = fill :: rest ∧
      lineOf lineSize fill.1 = line ∧
      fill.2.hit = false ∧
      ∀ entry ∈ rest, lineOf lineSize entry.1 = line → entry.2.hit = true

/-- Some entry writes a line. -/
def Writes (lineSize line : Nat) (log : Log) : Prop :=
  ∃ entry ∈ log,
    lineOf lineSize entry.1 = line ∧ entry.1.isWrite = true

section SinceFill

variable {lineSize line : Nat}
variable {log since : Log}
variable {entry : Request × CacheAccessResult}

/-- An entry that does not fill the line continues the part. -/
theorem SinceFill.snoc
    (sinceFill : SinceFill lineSize log line since)
    (noFill : lineOf lineSize entry.1 = line → entry.2.hit = true) :
    SinceFill lineSize (log ++ [entry]) line (since ++ [entry]) := by
  obtain ⟨before, fill, rest, rfl, rfl, isLine, missed, hits⟩ := sinceFill
  refine
    ⟨before, fill, rest ++ [entry], List.append_assoc _ _ _, rfl, isLine,
      missed, fun other member same => ?_⟩
  rcases List.mem_append.mp member with isOld | isNew
  · exact hits other isOld same
  · obtain rfl := List.mem_singleton.mp isNew
    exact noFill same

/-- A fill of the line starts the part anew. -/
theorem sinceFill_fill
    (isLine : lineOf lineSize entry.1 = line)
    (missed : entry.2.hit = false) :
    SinceFill lineSize (log ++ [entry]) line [entry] :=
  ⟨log, entry, [], rfl, rfl, isLine, missed, nofun⟩

/-- One more entry writes the line if it is one of its writes. -/
theorem writes_snoc :
    Writes lineSize line (log ++ [entry]) ↔
      Writes lineSize line log ∨
        (lineOf lineSize entry.1 = line ∧ entry.1.isWrite = true) := by
  constructor
  · rintro ⟨other, member, isWrite⟩
    rcases List.mem_append.mp member with isOld | isNew
    · exact Or.inl ⟨other, isOld, isWrite⟩
    · obtain rfl := List.mem_singleton.mp isNew
      exact Or.inr isWrite
  · rintro (⟨other, member, isWrite⟩ | isWrite)
    · exact ⟨other, List.mem_append_left _ member, isWrite⟩
    · exact
        ⟨entry, List.mem_append_right _ (List.mem_singleton_self entry),
          isWrite⟩

end SinceFill

/-! ## The balance -/

/-- The line number held by a way of a set. -/
def lineNumber (cache : Cache) (set way : Nat) : Nat :=
  (lineAt cache set way).tag * cache.numSets + set

/-- A line is resident in a way of a set. -/
structure Resident
    (cache : Cache)
    (line set way : Nat) : Prop where
  setInside : set < cache.numSets
  wayInside : way < cache.associativity
  valid : (lineAt cache set way).valid = true
  isLine : lineNumber cache set way = line

/-- A dirty line of a cache. -/
def isDirty (line : CacheLine) : Bool :=
  line.valid && line.dirty

/--
The books of a cache balance after a log with some number of writes that found
their line absent or clean.
-/
structure Balanced
    (cache : Cache)
    (log : Log)
    (freshWrites : Nat) : Prop where
  distinct :
    ∀ set < cache.numSets,
      ∀ first < cache.associativity,
        ∀ second < cache.associativity,
          (lineAt cache set first).valid = true →
          (lineAt cache set second).valid = true →
          (lineAt cache set first).tag = (lineAt cache set second).tag →
          first = second
  dirty :
    ∀ line set way,
      Resident cache line set way →
      ∃ since,
        SinceFill cache.lineSize log line since ∧
          ((lineAt cache set way).dirty = true ↔
            Writes cache.lineSize line since)
  accesses : cache.stats.accesses = cache.stats.hits + cache.stats.misses
  misses :
    cache.stats.misses =
      cache.stats.evictions + countLines CacheLine.valid cache.sets
  writes :
    cache.stats.dirtyEvictions + countLines isDirty cache.sets =
      freshWrites

/-- A line number tells its set and its tag. -/
theorem number_inj
    {numSets set other tag otherTag : Nat}
    (setInside : set < numSets)
    (otherInside : other < numSets)
    (same : tag * numSets + set = otherTag * numSets + other) :
    set = other ∧ tag = otherTag := by
  have positive : 0 < numSets := Nat.zero_lt_of_lt setInside
  have sameSet := congrArg (· % numSets) same
  have sameTag := congrArg (· / numSets) same
  simp only [Nat.mul_comm _ numSets, Nat.mul_add_mod,
    Nat.mod_eq_of_lt setInside, Nat.mod_eq_of_lt otherInside] at sameSet
  simp only [Nat.mul_comm _ numSets, Nat.mul_add_div positive,
    Nat.div_eq_of_lt setInside, Nat.div_eq_of_lt otherInside,
    Nat.add_zero] at sameTag
  exact ⟨sameSet, sameTag⟩

/-- A line is resident at most once. -/
theorem Balanced.resident_unique
    {cache : Cache}
    {log : Log}
    {freshWrites : Nat}
    (balanced : Balanced cache log freshWrites)
    {line set way other otherWay : Nat}
    (resident : Resident cache line set way)
    (again : Resident cache line other otherWay) :
    set = other ∧ way = otherWay := by
  obtain ⟨rfl, sameTag⟩ :=
    number_inj resident.setInside again.setInside
      (resident.isLine.trans again.isLine.symm)
  refine ⟨rfl, ?_⟩
  exact
    balanced.distinct set resident.setInside way resident.wayInside otherWay
      again.wayInside resident.valid again.valid sameTag

section Step

variable {cache after : Cache}
variable {request : Request}
variable {result : CacheAccessResult}
variable {way freshWrites : Nat}
variable {log : Log}

/-- Placing a line leaves no second way with its tag. -/
theorem Balanced.place_distinct
    (balanced : Balanced cache log freshWrites)
    (placed : Placed cache request result way after)
    (sound : Sound cache)
    (positiveSets : 0 < cache.numSets)
    {other : Nat}
    (otherInside : other < cache.associativity)
    (valid :
      (lineAt cache (cache.setIndex request.address) other).valid = true)
    (sameTag :
      (lineAt cache (cache.setIndex request.address) other).tag =
        cache.tagOf request.address) :
    other = way := by
  cases hit : result.hit with
  | true =>
      obtain ⟨isValid, isTag⟩ := placed.found hit
      exact
        balanced.distinct _ (setIndex_lt positiveSets request) other
          otherInside way placed.inside valid isValid
          (sameTag.trans isTag.symm)
  | false =>
      exact
        (placed.missed sound positiveSets hit other otherInside valid
          sameTag).elim

/-- Placing a line keeps the tags of a set distinct. -/
theorem Balanced.step_distinct
    (balanced : Balanced cache log freshWrites)
    (placed : Placed cache request result way after)
    (sound : Sound cache)
    (positiveSets : 0 < cache.numSets)
    {set first second : Nat}
    (inside : set < cache.numSets)
    (firstInside : first < cache.associativity)
    (secondInside : second < cache.associativity)
    (firstValid : (lineAt after set first).valid = true)
    (secondValid : (lineAt after set second).valid = true)
    (sameTag :
      (lineAt after set first).tag = (lineAt after set second).tag) :
    first = second := by
  have lineAfter := placed.lineAt_after sound positiveSets
  rw [lineAfter] at firstValid secondValid
  rw [lineAfter, lineAfter] at sameTag
  split at firstValid
  · rename_i here
    obtain ⟨rfl, rfl⟩ := here
    rw [if_pos ⟨rfl, rfl⟩] at sameTag
    split at secondValid
    · rename_i alsoHere
      exact alsoHere.2.symm
    · rename_i notHere
      rw [if_neg notHere] at sameTag
      exact
        (balanced.place_distinct placed sound positiveSets secondInside
          secondValid sameTag.symm).symm
  · rename_i notHere
    rw [if_neg notHere] at sameTag
    split at secondValid
    · rename_i here
      obtain ⟨rfl, rfl⟩ := here
      rw [if_pos ⟨rfl, rfl⟩] at sameTag
      exact
        balanced.place_distinct placed sound positiveSets firstInside
          firstValid sameTag
    · rename_i alsoNotHere
      rw [if_neg alsoNotHere] at sameTag
      exact
        balanced.distinct set inside first firstInside second secondInside
          firstValid secondValid sameTag

/-- Placing a line keeps dirtiness the writes since the last fill. -/
theorem Balanced.step_dirty
    (balanced : Balanced cache log freshWrites)
    (placed : Placed cache request result way after)
    (sound : Sound cache)
    (positiveSets : 0 < cache.numSets)
    {line set other : Nat}
    (resident : Resident after line set other) :
    ∃ since,
      SinceFill cache.lineSize (log ++ [(request, result)]) line since ∧
        ((lineAt after set other).dirty = true ↔
          Writes cache.lineSize line since) := by
  have lineAfter := placed.lineAt_after sound positiveSets
  have isLine := Lru.tagOf_setIndex cache request.address
  obtain ⟨setInside, wayInside, valid, rfl⟩ := resident
  rw [placed.numSets] at setInside
  rw [placed.associativity] at wayInside
  rw [lineAfter] at valid
  rw [lineNumber, placed.numSets, lineAfter]
  split at valid
  · rename_i here
    obtain ⟨rfl, rfl⟩ := here
    rw [if_pos ⟨rfl, rfl⟩]
    change
      ∃ since,
        SinceFill cache.lineSize (log ++ [(request, result)])
            (cache.tagOf request.address * cache.numSets +
              cache.setIndex request.address) since ∧
          ((request.isWrite || findsDirty cache request) = true ↔
            Writes cache.lineSize
              (cache.tagOf request.address * cache.numSets +
                cache.setIndex request.address) since)
    rw [placed.findsDirty_eq, isLine]
    cases hit : result.hit with
    | true =>
        obtain ⟨isValid, isTag⟩ := placed.found hit
        obtain ⟨since, sinceFill, isDirty⟩ :=
          balanced.dirty (request.address / cache.lineSize) _ _
            ⟨setInside, wayInside, isValid,
              by rw [lineNumber, isTag, isLine]⟩
        refine ⟨_, sinceFill.snoc fun _ => hit, ?_⟩
        rw [writes_snoc, Bool.or_eq_true, Bool.true_and, isDirty, or_comm]
        exact or_congr_right (and_iff_right rfl).symm
    | false =>
        refine ⟨_, sinceFill_fill rfl hit, ?_⟩
        rw [Bool.false_and, Bool.or_false]
        constructor
        · intro isWrite
          exact ⟨_, List.mem_singleton_self _, rfl, isWrite⟩
        · rintro ⟨entry, member, _, isWrite⟩
          obtain rfl := List.mem_singleton.mp member
          exact isWrite
  · rename_i notHere
    rw [if_neg notHere]
    obtain ⟨since, sinceFill, isDirty⟩ :=
      balanced.dirty (lineNumber cache set other) set other
        ⟨setInside, wayInside, valid, rfl⟩
    -- The request is for another line, as its own one is elsewhere.
    have otherLine :
        lineOf cache.lineSize request ≠ lineNumber cache set other := by
      intro same
      obtain ⟨rfl, sameTag⟩ :=
        number_inj setInside (setIndex_lt positiveSets request)
          (same.symm.trans isLine.symm)
      have here :=
        balanced.place_distinct placed sound positiveSets wayInside valid
          sameTag
      exact notHere ⟨rfl, here⟩
    refine ⟨_, sinceFill.snoc fun same => (otherLine same).elim, ?_⟩
    rw [isDirty]
    exact
      (writes_snoc.trans
        (or_iff_left fun isWrite => otherLine isWrite.1)).symm

end Step

/-- A line gets dirty when it is written and was clean. -/
theorem toNat_or
    (written dirty : Bool) :
    (written || dirty).toNat = dirty.toNat + (written && !dirty).toNat := by
  cases written with
  | false => simp
  | true =>
      cases dirty with
      | false => rfl
      | true => rfl

/-- A request keeps the books balanced. -/
theorem Balanced.step
    {cache after : Cache}
    {request : Request}
    {result : CacheAccessResult}
    {way freshWrites : Nat}
    {log : Log}
    (balanced : Balanced cache log freshWrites)
    (placed : Placed cache request result way after)
    (sound : Sound cache)
    (positiveSets : 0 < cache.numSets) :
    Balanced after (log ++ [(request, result)])
      (freshWrites +
        (request.isWrite && !findsDirty cache request).toNat) := by
  refine ⟨?_, ?_, ?_, ?_, ?_⟩
  · rw [placed.numSets, placed.associativity]
    intro set inside first firstInside second secondInside
    exact
      balanced.step_distinct placed sound positiveSets inside firstInside
        secondInside
  · rw [placed.lineSize]
    intro line set other resident
    exact balanced.step_dirty placed sound positiveSets resident
  · rw [placed.stats]
    have accesses := balanced.accesses
    cases result.hit with
    | false =>
        simp only [Bool.not_false, Bool.toNat_true, Bool.toNat_false]
        omega
    | true =>
        simp only [Bool.not_true, Bool.toNat_true, Bool.toNat_false]
        omega
  · rw [placed.stats]
    have count := placed.countLines_add sound positiveSets CacheLine.valid
    have misses := balanced.misses
    simp only [placedLine, Bool.toNat_true] at count ⊢
    cases hit : result.hit with
    | false =>
        simp only [Bool.not_false, Bool.true_and, Bool.toNat_true]
        omega
    | true =>
        simp only [(placed.found hit).1, Bool.toNat_true] at count
        simp only [Bool.not_true, Bool.false_and, Bool.toNat_false]
        omega
  · rw [placed.stats]
    have count := placed.countLines_add sound positiveSets isDirty
    have writes := balanced.writes
    simp only [placedLine, isDirty, Bool.true_and, placed.findsDirty_eq]
      at count ⊢
    cases hit : result.hit with
    | false =>
        simp only [hit, Bool.not_false, Bool.false_and, Bool.or_false,
          Bool.true_and, Bool.and_true] at count ⊢
        omega
    | true =>
        simp only [hit, (placed.found hit).1, Bool.true_and] at count
        simp only [Bool.not_true, Bool.false_and, Bool.true_and,
          Bool.toNat_false]
        rw [toNat_or] at count
        omega

/-- The writes of a trace that find their line absent or clean. -/
def freshWrites (cache : Cache) : List Request → Nat
  | [] => 0
  | request :: rest =>
      (request.isWrite && !findsDirty cache request).toNat +
        match request.perform cache with
        | .ok _ after => freshWrites after rest
        | .error _ _ => 0

/-- A trace runs to its end and leaves the books balanced. -/
theorem Balanced.run
    {cache : Cache}
    {log : Log}
    {writes : Nat}
    (balanced : Balanced cache log writes)
    (sound : Sound cache)
    (positiveSets : 0 < cache.numSets)
    (positive : 0 < cache.associativity)
    (requests : List Request) :
    ∃ results after,
      performAll requests cache = .ok results after ∧
        results.length = requests.length ∧
        Balanced after (log ++ requests.zip results)
          (writes + freshWrites cache requests) := by
  induction requests generalizing cache log writes with
  | nil =>
      refine ⟨[], cache, rfl, rfl, ?_⟩
      rwa [List.zip_nil_left, List.append_nil]
  | cons request rest inductionHypothesis =>
      obtain ⟨result, way, middle, ran, placed, soundNow⟩ :=
        sound.perform positiveSets positive request
      have now := balanced.step placed sound positiveSets
      obtain ⟨results, after, ranRest, length, last⟩ :=
        inductionHypothesis now soundNow
          (placed.numSets ▸ positiveSets) (placed.associativity ▸ positive)
      refine ⟨result :: results, after, ?_, ?_, ?_⟩
      · exact
          @Lru.performAll_split [] rest request [] _ _ _ _ _ _ rfl ran
            ranRest
      · rw [List.length_cons, List.length_cons, length]
      · rw [List.append_assoc, Nat.add_assoc] at last
        rw [freshWrites, ran]
        exact last

/--
For every supported policy, every trace of accesses to a fresh cache runs to its
end, no line is resident twice, and the books balance.
-/
theorem trace_balanced
    {numSets associativity lineSize : Nat}
    {policyName : String}
    (dimensions : 0 < numSets ∧ 0 < associativity ∧ 0 < lineSize)
    (supported :
      policyName = "LRU" ∨ policyName = "FIFO" ∨ policyName = "Random")
    (rng : Nat → Nat → Nat)
    (requests : List Request) :
    ∃ cache results after,
      Cache.new numSets associativity lineSize policyName rng = .ok cache ∧
        performAll requests cache = .ok results after ∧
        results.length = requests.length ∧
        Balanced after (requests.zip results) (freshWrites cache requests) ∧
        ∀ line set way other otherWay,
          Resident after line set way →
          Resident after line other otherWay →
          set = other ∧ way = otherWay := by
  obtain ⟨cache, built, sound, empty, rfl, rfl, rfl, noStats⟩ :=
    sound_new dimensions supported rng
  have start : Balanced cache [] 0 := by
    have invalid
        {set way : Nat} :
        ¬ (lineAt cache set way).valid = true := by
      rw [empty]
      exact Bool.false_ne_true
    refine ⟨?_, ?_, ?_, ?_, ?_⟩
    · exact fun _ _ _ _ _ _ valid => (invalid valid).elim
    · exact fun _ _ _ resident => (invalid resident.valid).elim
    · rw [noStats]
      rfl
    · rw [noStats, countLines_empty empty rfl]
    · rw [noStats, countLines_empty empty rfl]
  obtain ⟨results, after, ran, length, balanced⟩ :=
    start.run sound dimensions.1 dimensions.2.1 requests
  rw [Nat.zero_add, List.nil_append] at balanced
  exact
    ⟨cache, results, after, built, ran, length, balanced,
      fun _ _ _ _ _ resident again => balanced.resident_unique resident again⟩

/-- Random replacement may draw any way, and the books still balance. -/
theorem trace_balanced_random :
    ∃ cache results after,
      Cache.new 2 1 4 "Random" (fun _ draw => draw) = .ok cache ∧
        performAll [⟨0, true⟩, ⟨4, false⟩, ⟨9, true⟩] cache =
          .ok results after ∧
        after.stats.misses =
          after.stats.evictions +
            countLines CacheLine.valid after.sets := by
  obtain ⟨cache, results, after, built, ran, _, balanced, _⟩ :=
    @trace_balanced 2 1 4 "Random" (by decide) (Or.inr (Or.inr rfl))
      (fun _ draw => draw) [⟨0, true⟩, ⟨4, false⟩, ⟨9, true⟩]
  exact ⟨cache, results, after, built, ran, balanced.misses⟩

end CacheLedger

end SimSm
