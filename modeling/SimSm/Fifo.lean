import SimSm.Lru

namespace SimSm

/-!
# The FIFO cache keeps the lines filled last

Each set of a cache with the FIFO policy is related to the fills of the lines
that map to it: the queue lists the ways that hold the last fills, the oldest
first, and the bitmap marks the same ways.
-/

open Recency

namespace Fifo

open Lru (Arranged Request lineOf EverySet performAll)

/-- A set and its queue hold some keys, the last filled first. -/
def Queued
    (numSets associativity set : Nat)
    (lines : List CacheLine)
    (policy : ReplacementPolicy)
    (keys : List Nat) : Prop :=
  ∃ used free inQueue,
    policy = .fifo ⟨used.reverse, inQueue⟩ ∧
      Arranged numSets associativity set lines used free keys ∧
      inQueue.length = associativity ∧
      ∀ way, inQueue.getD way false = decide (way ∈ used)

section Step

variable {numSets associativity set tag : Nat}
variable {lines : List CacheLine}
variable {policy : ReplacementPolicy}
variable {keys : List Nat}

/-- A hit leaves the queue alone. -/
theorem Queued.hit
    {way : Nat}
    (queued : Queued numSets associativity set lines policy keys)
    (found : Cache.findHit? lines tag = some way)
    (isWrite : Bool) :
    tag * numSets + set ∈ keys ∧
      policy.onAccess way = policy ∧
      Queued numSets associativity set
        (lines.modify way fun line =>
          { line with dirty := isWrite || line.dirty })
        policy keys := by
  obtain ⟨used, free, inQueue, rfl, arranged, length, marked⟩ := queued
  obtain ⟨isUsed, isKey⟩ := arranged.findHit?_some found
  refine ⟨?_, ?_, used, free, inQueue, rfl, ?_, length, marked⟩
  · rw [arranged.held, ← isKey]
    exact List.mem_map_of_mem isUsed
  · have isMarked : inQueue.getD way false = true := by
      rw [marked, decide_eq_true isUsed]
    rw [ReplacementPolicy.onAccess, FIFOPolicy.onAccess, if_pos isMarked]
  · exact
      arranged.keep (List.length_modify _ _ _)
        (Lru.modify_kept lines way isWrite)

/-- A way that is not queued is queued last. -/
theorem onAccess_fresh
    {queue : List Nat}
    {inQueue : List Bool}
    {way : Nat}
    (unmarked : inQueue.getD way false = false) :
    FIFOPolicy.onAccess ⟨queue, inQueue⟩ way =
      ⟨queue ++ [way], inQueue.set way true⟩ := by
  rw [FIFOPolicy.onAccess, if_neg (by rw [unmarked]; exact Bool.false_ne_true)]

/-- A miss replaces the line filled first, once all ways are filled. -/
theorem Queued.miss
    (queued : Queued numSets associativity set lines policy keys)
    (positiveSets : 0 < numSets)
    (positive : 0 < associativity)
    (missed : Cache.findHit? lines tag = none)
    (isWrite : Bool) :
    tag * numSets + set ∉ keys ∧
      ∃ way chosen,
        policy.chooseVictim lines = .ok (way, chosen) ∧
          way < associativity ∧
          Queued numSets associativity set
            (lines.set way
              { valid := true, tag := tag, dirty := isWrite })
            (chosen.onAccess way)
            (((tag * numSets + set) :: keys).take associativity) := by
  obtain ⟨used, free, inQueue, rfl, arranged, length, marked⟩ := queued
  have missing := arranged.findHit?_none positiveSets missed
  refine ⟨missing, ?_⟩
  cases invalid : firstInvalid? lines with
  | some way =>
      obtain ⟨inside, _, notUsed⟩ := arranged.firstInvalid?_some invalid
      have unmarked : inQueue.getD way false = false := by
        rw [marked, decide_eq_false notUsed]
      refine
        ⟨way, .fifo ⟨used.reverse, inQueue⟩, ?_, inside, way :: used,
          free.filter (· ≠ way), inQueue.set way true, ?_,
          (arranged.fill_free invalid missing isWrite).2, ?_, ?_⟩
      · rw [ReplacementPolicy.chooseVictim, FIFOPolicy.chooseVictim, invalid]
        rfl
      · rw [ReplacementPolicy.onAccess, onAccess_fresh unmarked,
          List.reverse_cons]
      · rw [List.length_set, length]
      · intro other
        rw [Lru.getD_set (length ▸ inside), marked]
        by_cases same : other = way
        · simp [same]
        · simp [same]
  | none =>
      -- Every way is valid, so that the front of the queue is the first fill.
      obtain rfl := arranged.firstInvalid?_none invalid
      obtain ⟨recent, oldest, rfl, inside, notRecent⟩ :=
        arranged.exists_oldest positive
      have isInside : oldest < inQueue.length := length ▸ inside
      have unmarked :
          (inQueue.set oldest false).getD oldest false = false := by
        rw [Lru.getD_set isInside, if_pos rfl]
      refine
        ⟨oldest, .fifo ⟨recent.reverse, inQueue.set oldest false⟩, ?_, inside,
          oldest :: recent, [], (inQueue.set oldest false).set oldest true, ?_,
          (arranged.fill_oldest inside notRecent missing isWrite).2, ?_, ?_⟩
      · rw [ReplacementPolicy.chooseVictim, FIFOPolicy.chooseVictim, invalid,
          List.reverse_append]
        rfl
      · rw [ReplacementPolicy.onAccess, onAccess_fresh unmarked,
          List.reverse_cons]
      · rw [List.length_set, List.length_set, length]
      · intro other
        rw [List.set_set, Lru.getD_set isInside, marked]
        by_cases same : other = oldest
        · simp [same]
        · simp [same]

end Step

section WholeCache

/-- What was asked and what came of it, one entry a request. -/
abbrev Log := List (Request × CacheAccessResult)

/-- A miss on a line of a set, which fills it. -/
def fills
    (numSets set lineSize : Nat)
    (entry : Request × CacheAccessResult) :
    Bool :=
  !entry.2.hit && lineOf lineSize entry.1 % numSets == set

/-- The lines of a set in the order they were filled. -/
def filled (numSets set lineSize : Nat) (log : Log) : List Nat :=
  (log.filter (fills numSets set lineSize)).map fun entry =>
    lineOf lineSize entry.1

/-- A cache holds the lines filled last, in every set. -/
def QueuesFills (cache : Cache) (log : Log) : Prop :=
  EverySet
    (fun set lines policy =>
      Queued cache.numSets cache.associativity set lines policy
        ((filled cache.numSets set cache.lineSize log).reverse.take
          cache.associativity))
    cache

/-- One more entry adds to the fills of its own set if it missed. -/
theorem filled_snoc
    (numSets set lineSize : Nat)
    (log : Log)
    (entry : Request × CacheAccessResult) :
    filled numSets set lineSize (log ++ [entry]) =
      if fills numSets set lineSize entry then
        filled numSets set lineSize log ++ [lineOf lineSize entry.1]
      else
        filled numSets set lineSize log := by
  rw [filled, filled, List.filter_append, List.map_append,
    List.filter_singleton]
  cases fills numSets set lineSize entry with
  | false => simp
  | true => simp

/-- A fresh set holds nothing. -/
theorem queued_new
    (numSets associativity set : Nat) :
    Queued numSets associativity set
      (List.replicate associativity {})
      (.fifo (FIFOPolicy.new associativity)) [] := by
  refine
    ⟨[], List.range associativity, List.replicate associativity false, rfl,
      Lru.arranged_new _ _ set, List.length_replicate, fun way => ?_⟩
  rw [List.getD_eq_getElem?_getD, List.getElem?_replicate]
  split
  · rfl
  · rfl

/-- A fresh cache holds the fills of the empty log. -/
theorem queuesFills_new
    {numSets associativity lineSize : Nat}
    (dimensions : 0 < numSets ∧ 0 < associativity ∧ 0 < lineSize)
    (rng : Nat → Nat → Nat) :
    ∃ cache,
      Cache.new numSets associativity lineSize "FIFO" rng = .ok cache ∧
        QueuesFills cache [] ∧
        cache.numSets = numSets ∧
        cache.associativity = associativity ∧
        cache.lineSize = lineSize := by
  obtain ⟨cache, built, every, rfl, rfl, rfl, _⟩ :=
    @Lru.everySet_new _ _ _ "FIFO" rng
      (fun _ => .fifo (FIFOPolicy.new associativity)) dimensions
      (fun _ => rfl)
  refine ⟨cache, built, every.mono ?_, rfl, rfl, rfl⟩
  rintro set lines policy ⟨rfl, rfl⟩
  change
    Queued cache.numSets cache.associativity set
      (List.replicate cache.associativity {})
      (.fifo (FIFOPolicy.new cache.associativity))
      (List.take cache.associativity [])
  rw [List.take_nil]
  exact queued_new _ _ set

/-- A lookup succeeds, hits the lines filled last and records its fill. -/
theorem QueuesFills.perform
    {cache : Cache}
    {log : Log}
    (queues : QueuesFills cache log)
    (positiveSets : 0 < cache.numSets)
    (positive : 0 < cache.associativity)
    (request : Request) :
    ∃ result after,
      request.perform cache = .ok result after ∧
        (result.hit = true ↔
          lineOf cache.lineSize request ∈
            (filled cache.numSets
                (lineOf cache.lineSize request % cache.numSets)
                cache.lineSize log).reverse.take
              cache.associativity) ∧
        (result.hit = true → after.policies = cache.policies) ∧
        QueuesFills after (log ++ [(request, result)]) ∧
        after.numSets = cache.numSets ∧
        after.associativity = cache.associativity ∧
        after.lineSize = cache.lineSize := by
  have inside : cache.setIndex request.address < cache.numSets :=
    Nat.mod_lt _ positiveSets
  obtain ⟨policy, isPolicy, holds⟩ := queues.every _ inside
  have isLine := Lru.tagOf_setIndex cache request.address
  have others
      (result : CacheAccessResult)
      (other : Nat)
      (notSet : other ≠ cache.setIndex request.address) :
      filled cache.numSets other cache.lineSize (log ++ [(request, result)]) =
        filled cache.numSets other cache.lineSize log := by
    rw [filled_snoc, if_neg]
    rw [fills, Bool.and_eq_true, beq_iff_eq]
    exact fun isFill => notSet isFill.2.symm
  rw [request.perform_eq]
  cases found :
      Cache.findHit? (cache.sets.getD (cache.setIndex request.address) [])
        (cache.tagOf request.address) with
  | some way =>
      obtain ⟨member, sameQueue, kept⟩ := holds.hit found request.isWrite
      rw [isLine] at member
      refine
        ⟨_, _, Cache.lookupAndFill_hit isPolicy found request.isWrite,
          iff_of_true rfl member, fun _ => ?_, ?_, rfl, rfl, rfl⟩
      · obtain ⟨bound, rfl⟩ := List.getElem?_eq_some_iff.mp isPolicy
        dsimp only
        rw [sameQueue]
        exact List.set_getElem_self bound
      · refine
          queues.replace ?_ (fun other notSet lines policy isQueued => ?_)
            rfl rfl rfl
        · have noFill :
              ¬ fills cache.numSets (cache.setIndex request.address)
                cache.lineSize (request, { hit := true }) = true :=
            Bool.false_ne_true
          dsimp only
          rw [filled_snoc, if_neg noFill, sameQueue]
          exact kept
        · dsimp only
          rw [others _ other notSet]
          exact isQueued
  | none =>
      obtain ⟨missing, way, chosen, isVictim, _, written⟩ :=
        holds.miss positiveSets positive found request.isWrite
      rw [isLine] at missing written
      refine
        ⟨_, _,
          Cache.lookupAndFill_miss isPolicy found isVictim request.isWrite,
          iff_of_false Bool.false_ne_true missing,
          fun isHit => (Bool.false_ne_true isHit).elim, ?_, rfl, rfl, rfl⟩
      refine
        queues.replace ?_ (fun other notSet lines policy isQueued => ?_)
          rfl rfl rfl
      · have isFill
            (result : CacheAccessResult)
            (isMiss : result.hit = false) :
            fills cache.numSets (cache.setIndex request.address)
              cache.lineSize (request, result) = true := by
          rw [fills, isMiss, Bool.not_false, Bool.true_and, beq_iff_eq]
          rfl
        dsimp only
        rw [filled_snoc, if_pos (isFill _ rfl), List.reverse_append,
          List.reverse_singleton, List.singleton_append, ← cons_take]
        exact written
      · dsimp only
        rw [others _ other notSet]
        exact isQueued

/--
A line was filled before, with fewer than `associativity` fills in its set
since its last fill.
-/
def FilledRecently
    (numSets associativity lineSize : Nat)
    (log : Log)
    (line : Nat) : Prop :=
  ∃ before fill since,
    log = before ++ fill :: since ∧
      lineOf lineSize fill.1 = line ∧
      fill.2.hit = false ∧
      (∀ entry ∈ since,
        lineOf lineSize entry.1 = line → entry.2.hit = true) ∧
      (since.filter fun entry =>
          !entry.2.hit &&
            lineOf lineSize entry.1 % numSets == line % numSets).length <
        associativity

/-- Recent fills in a log are recent fills of its lines. -/
theorem filledRecently_iff
    {numSets associativity lineSize line : Nat}
    {log : Log} :
    FilledRecently numSets associativity lineSize log line ↔
      line ∈
        (filled numSets (line % numSets) lineSize log).reverse.take
          associativity := by
  rw [mem_take_reverse]
  constructor
  · rintro ⟨before, fill, since, rfl, isLine, missed, noFill, few⟩
    have isFill : fills numSets (line % numSets) lineSize fill = true := by
      rw [fills, missed, isLine]
      simp
    refine
      ⟨filled numSets (line % numSets) lineSize before,
        filled numSets (line % numSets) lineSize since, ?_, ?_, ?_⟩
    · rw [filled, List.filter_append, List.filter_cons, if_pos isFill,
        List.map_append, List.map_cons, isLine]
      rfl
    · rw [filled, List.mem_map]
      rintro ⟨entry, member, same⟩
      obtain ⟨isSince, isMiss⟩ := List.mem_filter.mp member
      rw [fills, noFill entry isSince same] at isMiss
      cases isMiss
    · rw [filled, List.length_map]
      exact few
  · rintro ⟨earlier, later, shape, last, few⟩
    obtain ⟨front, back, split, rfl, backShape⟩ :=
      List.map_eq_append_iff.mp shape
    obtain ⟨fill, between, rfl, isLine, rfl⟩ :=
      List.map_eq_cons_iff.mp backShape
    obtain ⟨before, after, rfl, rfl, afterShape⟩ :=
      List.filter_eq_append_iff.mp split
    obtain ⟨hits, since, rfl, _, isFill, rfl⟩ :=
      List.filter_eq_cons_iff.mp afterShape
    rw [fills, Bool.and_eq_true, Bool.not_eq_true'] at isFill
    refine
      ⟨before ++ hits, fill, since, by rw [List.append_assoc], isLine,
        isFill.1, fun entry isSince same => ?_, ?_⟩
    · by_contra missed
      refine
        last
          (List.mem_map.mpr
            ⟨entry, List.mem_filter.mpr ⟨isSince, ?_⟩, same⟩)
      rw [fills, same, Bool.eq_false_iff.mpr missed]
      simp
    · rw [List.length_map] at few
      exact few

/-- What holds of a cache and its log at a time of a trace. -/
structure Runs
    (numSets associativity lineSize : Nat)
    (cache : Cache)
    (log : Log) : Prop where
  queues : QueuesFills cache log
  numSets : cache.numSets = numSets
  associativity : cache.associativity = associativity
  lineSize : cache.lineSize = lineSize

/--
Every trace of accesses to a fresh FIFO cache runs to its end, an access hits
exactly when its line was filled recently, and no hit changes the queues.
-/
theorem hit_iff_filledRecently
    {numSets associativity lineSize : Nat}
    (dimensions : 0 < numSets ∧ 0 < associativity ∧ 0 < lineSize)
    (rng : Nat → Nat → Nat)
    (requests : List Request) :
    ∃ cache results after,
      Cache.new numSets associativity lineSize "FIFO" rng = .ok cache ∧
        performAll requests cache = .ok results after ∧
        results.length = requests.length ∧
        ∀ before request later,
          requests = before ++ request :: later →
            ∃ first result rest prior next,
              results = first ++ result :: rest ∧
                performAll before cache = .ok first prior ∧
                request.perform prior = .ok result next ∧
                (result.hit = true ↔
                  FilledRecently numSets associativity lineSize
                    (before.zip first) (lineOf lineSize request)) ∧
                (result.hit = true → next.policies = prior.policies) := by
  obtain ⟨cache, built, queues, sameSets, sameWays, sameSize⟩ :=
    queuesFills_new dimensions rng
  have step
      {cache : Cache}
      {log : Log}
      (runs : Runs numSets associativity lineSize cache log)
      (request : Request) :
      ∃ result after,
        request.perform cache = .ok result after ∧
          Runs numSets associativity lineSize after
            (log ++ [(request, result)]) := by
    obtain ⟨queues, rfl, rfl, rfl⟩ := runs
    obtain ⟨result, after, ran, _, _, queued, sameSets, sameWays,
      sameSize⟩ :=
      queues.perform dimensions.1 dimensions.2.1 request
    exact ⟨result, after, ran, queued, sameSets, sameWays, sameSize⟩
  have start : Runs numSets associativity lineSize cache [] :=
    ⟨queues, sameSets, sameWays, sameSize⟩
  obtain ⟨results, after, ran, length, _⟩ :=
    Lru.performAll_run step start requests
  refine ⟨cache, results, after, built, ran, length, ?_⟩
  rintro before request later rfl
  obtain ⟨first, prior, ranFirst, _, now⟩ :=
    Lru.performAll_run step start before
  obtain ⟨queuesNow, rfl, rfl, rfl⟩ := now
  obtain ⟨result, next, ranRequest, isHit, unchanged, queuesNext, sameSets,
    sameWays, sameSize⟩ :=
    queuesNow.perform dimensions.1 dimensions.2.1 request
  have startNext :
      Runs prior.numSets prior.associativity prior.lineSize next
        (before.zip first ++ [(request, result)]) :=
    ⟨queuesNext, sameSets, sameWays, sameSize⟩
  obtain ⟨rest, last, ranRest, _, _⟩ :=
    Lru.performAll_run step startNext later
  have whole := Lru.performAll_split ranFirst ranRequest ranRest
  rw [ran] at whole
  cases whole
  refine
    ⟨first, result, rest, prior, next, rfl, ranFirst, ranRequest, ?_,
      unchanged⟩
  rw [isHit, filledRecently_iff]
  rfl

/-- What a trace finds in one set of two ways. -/
def twoWayResults (requests : List Request) :
    Option (List CacheAccessResult) :=
  match Cache.new 1 2 4 "FIFO" fun _ _ => 0 with
  | .error _ => none
  | .ok cache =>
      match performAll requests cache with
      | .error _ _ => none
      | .ok results _ => some results

theorem twoWayResults_eq
    {cache after : Cache}
    {requests : List Request}
    {results : List CacheAccessResult}
    (built : Cache.new 1 2 4 "FIFO" (fun _ _ => 0) = .ok cache)
    (ran : performAll requests cache = .ok results after) :
    twoWayResults requests = some results := by
  unfold twoWayResults
  rw [built]
  dsimp only
  rw [ran]

/-- Three lines in two ways: the second fill is still there, the first is not. -/
theorem hit_iff_filledRecently_again :
    ∃ cache results after,
      Cache.new 1 2 4 "FIFO" (fun _ _ => 0) = .ok cache ∧
        performAll
            [⟨0, false⟩, ⟨4, true⟩, ⟨1, false⟩, ⟨8, false⟩, ⟨5, true⟩,
              ⟨2, false⟩]
            cache = .ok results after ∧
        (∃ result, results[4]? = some result ∧ result.hit = true) ∧
        ∃ result, results[5]? = some result ∧ ¬ result.hit = true := by
  obtain ⟨cache, results, after, built, ran, _, each⟩ :=
    @hit_iff_filledRecently 1 2 4 (by decide) (fun _ _ => 0)
      [⟨0, false⟩, ⟨4, true⟩, ⟨1, false⟩, ⟨8, false⟩, ⟨5, true⟩,
        ⟨2, false⟩]
  refine ⟨cache, results, after, built, ran, ?_, ?_⟩
  · obtain ⟨first, result, rest, prior, next, rfl, ranFirst, _, isHit, _⟩ :=
      each [⟨0, false⟩, ⟨4, true⟩, ⟨1, false⟩, ⟨8, false⟩] ⟨5, true⟩
        [⟨2, false⟩] rfl
    have found :
        twoWayResults [⟨0, false⟩, ⟨4, true⟩, ⟨1, false⟩, ⟨8, false⟩] =
          some [⟨false, false, false⟩, ⟨false, false, false⟩,
            ⟨true, false, false⟩, ⟨false, true, false⟩] := by
      decide +kernel
    rw [twoWayResults_eq built ranFirst] at found
    cases found
    refine ⟨result, rfl, isHit.mpr ?_⟩
    rw [filledRecently_iff]
    decide
  · obtain ⟨first, result, rest, prior, next, rfl, ranFirst, _, isHit, _⟩ :=
      each
        [⟨0, false⟩, ⟨4, true⟩, ⟨1, false⟩, ⟨8, false⟩, ⟨5, true⟩]
        ⟨2, false⟩ [] rfl
    have found :
        twoWayResults
            [⟨0, false⟩, ⟨4, true⟩, ⟨1, false⟩, ⟨8, false⟩, ⟨5, true⟩] =
          some [⟨false, false, false⟩, ⟨false, false, false⟩,
            ⟨true, false, false⟩, ⟨false, true, false⟩,
            ⟨true, false, false⟩] := by
      decide +kernel
    rw [twoWayResults_eq built ranFirst] at found
    cases found
    refine ⟨result, rfl, isHit.not.mpr ?_⟩
    rw [filledRecently_iff]
    decide

end WholeCache

end Fifo

end SimSm
