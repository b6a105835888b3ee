import SimSm.Cache
import SimSm.Library.Outcome
import SimSm.Library.Recency

namespace SimSm

/-!
# The LRU cache keeps the most recent lines

Each set of a cache with the LRU policy is related to the recency of the lines
that map to it: the recency list starts with the ways that hold these lines, in
order of their last use, and ends with the ways that were never filled.
-/

open Recency

namespace Lru

/-- The line number held by a way of a set. -/
def keyAt (numSets set : Nat) (lines : List CacheLine) (way : Nat) : Nat :=
  (lines.getD way {}).tag * numSets + set

/--
The ways of a set: the used ones hold the keys in order, the others nothing.
-/
structure Arranged
    (numSets associativity set : Nat)
    (lines : List CacheLine)
    (used free keys : List Nat) : Prop where
  ways : (used ++ free).Perm (List.range associativity)
  length : lines.length = associativity
  valid : ∀ way ∈ used, (lines.getD way {}).valid = true
  invalid : ∀ way ∈ free, (lines.getD way {}).valid = false
  held : keys = used.map (keyAt numSets set lines)
  distinct : keys.Nodup

/-- A set and its policy hold some keys in order of recency. -/
def SetFollows
    (numSets associativity set : Nat)
    (lines : List CacheLine)
    (policy : ReplacementPolicy)
    (keys : List Nat) : Prop :=
  ∃ used free,
    policy = .lru ⟨used ++ free⟩ ∧
      Arranged numSets associativity set lines used free keys

namespace Arranged

variable {numSets associativity set key : Nat}
variable {lines : List CacheLine}
variable {used free keys : List Nat}

/-- The ways of a set are distinct. -/
theorem nodup
    (arranged :
      Arranged numSets associativity set lines used free keys) :
    (used ++ free).Nodup :=
  arranged.ways.nodup_iff.mpr List.nodup_range

/-- The ways of a set are those below the associativity. -/
theorem mem_ways
    (arranged :
      Arranged numSets associativity set lines used free keys)
    {way : Nat} :
    way ∈ used ++ free ↔ way < associativity := by
  rw [arranged.ways.mem_iff, List.mem_range]

/-- No more keys than ways. -/
theorem length_le
    (arranged :
      Arranged numSets associativity set lines used free keys) :
    keys.length + free.length = associativity := by
  have total := arranged.ways.length_eq
  rw [List.length_append, List.length_range] at total
  rw [arranged.held, List.length_map, total]

/-- A valid way is a used one. -/
theorem mem_used
    (arranged :
      Arranged numSets associativity set lines used free keys)
    {way : Nat}
    (inside : way < associativity)
    (valid : (lines.getD way {}).valid = true) :
    way ∈ used := by
  rcases List.mem_append.mp (arranged.mem_ways.mpr inside) with
    isUsed | isFree
  · exact isUsed
  · rw [arranged.invalid way isFree] at valid
    cases valid

/-- Two used ways with one key are the same. -/
theorem key_inj
    (arranged :
      Arranged numSets associativity set lines used free keys)
    {first second : Nat}
    (firstUsed : first ∈ used)
    (secondUsed : second ∈ used)
    (same :
      keyAt numSets set lines first = keyAt numSets set lines second) :
    first = second := by
  have distinct := arranged.distinct
  rw [arranged.held] at distinct
  exact List.inj_on_of_nodup_map distinct firstUsed secondUsed same

/-- A lookup finds a way exactly when its line is among the keys. -/
theorem findHit?_some
    (arranged :
      Arranged numSets associativity set lines used free keys)
    {way tag : Nat}
    (found : Cache.findHit? lines tag = some way) :
    way ∈ used ∧ keyAt numSets set lines way = tag * numSets + set := by
  obtain ⟨inside, passes, _⟩ :=
    List.findIdx?_eq_some_iff_getElem.mp found
  rw [Bool.and_eq_true, beq_iff_eq] at passes
  have shape : lines.getD way {} = lines[way] := by
    rw [List.getD_eq_getElem?_getD, List.getElem?_eq_getElem inside]
    rfl
  rw [← shape] at passes
  refine
    ⟨arranged.mem_used (by rwa [← arranged.length]) passes.1, ?_⟩
  rw [keyAt, passes.2]

/-- A lookup that finds nothing has no such key. -/
theorem findHit?_none
    (arranged :
      Arranged numSets associativity set lines used free keys)
    {tag : Nat}
    (positive : 0 < numSets)
    (missing : Cache.findHit? lines tag = none) :
    tag * numSets + set ∉ keys := by
  rw [arranged.held, List.mem_map]
  rintro ⟨way, isUsed, isKey⟩
  have inside : way < lines.length := by
    rw [arranged.length]
    exact
      arranged.mem_ways.mp (List.mem_append_left free isUsed)
  have shape : lines.getD way {} = lines[way] := by
    rw [List.getD_eq_getElem?_getD, List.getElem?_eq_getElem inside]
    rfl
  have notFound :=
    List.findIdx?_eq_none_iff.mp missing lines[way]
      (List.getElem_mem inside)
  have valid := arranged.valid way isUsed
  rw [keyAt] at isKey
  have sameTag : (lines.getD way {}).tag = tag :=
    Nat.eq_of_mul_eq_mul_right positive (Nat.add_right_cancel isKey)
  rw [← shape, valid, sameTag] at notFound
  simp at notFound

/-- Using a way moves it to the front, with the key that it holds now. -/
theorem move
    (arranged :
      Arranged numSets associativity set lines used free keys)
    {way : Nat}
    {after : List CacheLine}
    (inside : way < associativity)
    (length : after.length = associativity)
    (valid : (after.getD way {}).valid = true)
    (others :
      ∀ other, other ≠ way →
        (after.getD other {}).valid = (lines.getD other {}).valid ∧
          (after.getD other {}).tag = (lines.getD other {}).tag)
    (fresh :
      ∀ other ∈ used, other ≠ way →
        keyAt numSets set lines other ≠ keyAt numSets set after way) :
    LRUPolicy.onAccess ⟨used ++ free⟩ way =
        ⟨(way :: used.filter (· ≠ way)) ++ free.filter (· ≠ way)⟩ ∧
      Arranged numSets associativity set after
        (way :: used.filter (· ≠ way)) (free.filter (· ≠ way))
        (keyAt numSets set after way ::
          (used.filter (· ≠ way)).map (keyAt numSets set lines)) := by
  have member := arranged.mem_ways.mpr inside
  have erased :
      (used ++ free).erase way =
        used.filter (· ≠ way) ++ free.filter (· ≠ way) := by
    have sameTest :
        (fun other => other != way) = fun other => decide (other ≠ way) := by
      funext other
      rw [bne, beq_eq_decide, decide_not]
    rw [arranged.nodup.erase_eq_filter, List.filter_append, sameTest]
  have sameKeys :
      (used.filter (· ≠ way)).map (keyAt numSets set lines) =
        (used.filter (· ≠ way)).map (keyAt numSets set after) := by
    refine List.map_congr_left fun other isOther => ?_
    have notWay := of_decide_eq_true (List.mem_filter.mp isOther).2
    rw [keyAt, keyAt, (others other notWay).2]
  constructor
  · rw [LRUPolicy.onAccess, if_pos member, erased]
    rfl
  · refine ⟨?_, length, ?_, ?_, ?_, ?_⟩
    · rw [List.cons_append, ← erased]
      exact (List.perm_cons_erase member).symm.trans arranged.ways
    · intro other isOther
      rcases List.mem_cons.mp isOther with rfl | isOld
      · exact valid
      · obtain ⟨wasUsed, notWay⟩ := List.mem_filter.mp isOld
        rw [(others other (of_decide_eq_true notWay)).1]
        exact arranged.valid other wasUsed
    · intro other isOther
      obtain ⟨wasFree, notWay⟩ := List.mem_filter.mp isOther
      rw [(others other (of_decide_eq_true notWay)).1]
      exact arranged.invalid other wasFree
    · rw [List.map_cons, sameKeys]
    · rw [List.nodup_cons, List.mem_map]
      constructor
      · rintro ⟨other, isOther, same⟩
        obtain ⟨wasUsed, notWay⟩ := List.mem_filter.mp isOther
        exact
          fresh other wasUsed (of_decide_eq_true notWay) same
      · have distinct := arranged.distinct
        rw [arranged.held] at distinct
        exact
          distinct.sublist (List.filter_sublist.map _)

/-- Touching the key of a used way moves it to the front. -/
theorem touch_used
    (arranged :
      Arranged numSets associativity set lines used free keys)
    {way : Nat}
    (isUsed : way ∈ used)
    (isKey : keyAt numSets set lines way = key) :
    touch keys key =
      key ::
        (used.filter (· ≠ way)).map (keyAt numSets set lines) := by
  rw [touch, arranged.held, List.filter_map]
  congr 2
  refine List.filter_congr fun other otherUsed => ?_
  rw [Function.comp_apply, decide_eq_decide]
  refine not_congr ⟨fun same => ?_, fun same => ?_⟩
  · exact arranged.key_inj otherUsed isUsed (same.trans isKey.symm)
  · rw [same, isKey]

/-- Ways that keep their lines stay arranged. -/
theorem keep
    (arranged :
      Arranged numSets associativity set lines used free keys)
    {after : List CacheLine}
    (length : after.length = lines.length)
    (kept :
      ∀ way,
        (after.getD way {}).valid = (lines.getD way {}).valid ∧
          (after.getD way {}).tag = (lines.getD way {}).tag) :
    Arranged numSets associativity set after used free keys := by
  refine
    ⟨arranged.ways, length.trans arranged.length, fun way isUsed => ?_,
      fun way isFree => ?_, ?_, arranged.distinct⟩
  · rw [(kept way).1]
    exact arranged.valid way isUsed
  · rw [(kept way).1]
    exact arranged.invalid way isFree
  · rw [arranged.held]
    refine List.map_congr_left fun way _ => ?_
    rw [keyAt, keyAt, (kept way).2]

/-- The first invalid way is a free one. -/
theorem firstInvalid?_some
    (arranged :
      Arranged numSets associativity set lines used free keys)
    {way : Nat}
    (invalid : firstInvalid? lines = some way) :
    way < associativity ∧ way ∈ free ∧ way ∉ used := by
  obtain ⟨inside, isInvalid, _⟩ :=
    List.findIdx?_eq_some_iff_getElem.mp invalid
  rw [arranged.length] at inside
  have notUsed : way ∉ used := by
    intro isUsed
    have valid := arranged.valid way isUsed
    rw [List.getD_eq_getElem?_getD,
      List.getElem?_eq_getElem (by rwa [arranged.length]),
      Option.getD_some] at valid
    rw [valid] at isInvalid
    cases isInvalid
  refine ⟨inside, ?_, notUsed⟩
  exact
    (List.mem_append.mp (arranged.mem_ways.mpr inside)).resolve_left notUsed

/-- Without an invalid way all of them are used. -/
theorem firstInvalid?_none
    (arranged :
      Arranged numSets associativity set lines used free keys)
    (invalid : firstInvalid? lines = none) :
    free = [] := by
  refine List.eq_nil_iff_forall_not_mem.mpr fun way isFree => ?_
  have inside := arranged.mem_ways.mp (List.mem_append_right used isFree)
  have isInvalid := arranged.invalid way isFree
  have isValid :=
    List.findIdx?_eq_none_iff.mp invalid (lines.getD way {}) (by
      rw [List.getD_eq_getElem?_getD,
        List.getElem?_eq_getElem (by rwa [arranged.length])]
      exact List.getElem_mem _)
  rw [isInvalid] at isValid
  cases isValid

/-- So the last of them, if any, can be told from the others. -/
theorem exists_oldest
    (arranged :
      Arranged numSets associativity set lines used [] keys)
    (positive : 0 < associativity) :
    ∃ recent oldest,
      used = recent ++ [oldest] ∧
        oldest < associativity ∧ oldest ∉ recent := by
  have distinct := arranged.nodup
  have total := arranged.ways.length_eq
  rw [List.append_nil] at distinct total
  rw [List.length_range] at total
  have nonempty : used ≠ [] :=
    List.ne_nil_of_length_pos (total ▸ positive)
  obtain ⟨recent, oldest, rfl⟩ :=
    (List.eq_nil_or_concat' used).resolve_left nonempty
  have isUsed : oldest ∈ recent ++ [oldest] ++ [] := by simp
  refine ⟨recent, oldest, rfl, arranged.mem_ways.mp isUsed, fun again => ?_⟩
  exact
    (List.nodup_append.mp distinct).2.2 oldest again oldest
      (List.mem_singleton_self oldest) rfl

end Arranged

/-- Dropping a way that is not there changes nothing. -/
theorem filter_of_not_mem
    {ways : List Nat}
    {way : Nat}
    (absent : way ∉ ways) :
    ways.filter (· ≠ way) = ways := by
  rw [List.filter_eq_self]
  intro other isOther
  rw [decide_eq_true_eq]
  rintro rfl
  exact absent isOther

/-- A hit only marks its line. -/
theorem modify_kept
    (lines : List CacheLine)
    (way : Nat)
    (isWrite : Bool)
    (other : Nat) :
    ((lines.modify way fun line =>
          { line with dirty := isWrite || line.dirty }).getD other
        {}).valid = (lines.getD other {}).valid ∧
      ((lines.modify way fun line =>
          { line with dirty := isWrite || line.dirty }).getD other
        {}).tag = (lines.getD other {}).tag := by
  rw [List.getD_eq_getElem?_getD, List.getD_eq_getElem?_getD,
    List.getElem?_modify]
  cases lines[other]? with
  | none => exact ⟨rfl, rfl⟩
  | some line =>
      by_cases same : way = other
      · simp [same]
      · simp [same]

section Step

variable {numSets associativity set tag : Nat}
variable {lines : List CacheLine}
variable {policy : ReplacementPolicy}
variable {keys : List Nat}

/-- A hit moves its line to the front. -/
theorem SetFollows.hit
    {way : Nat}
    (follows : SetFollows numSets associativity set lines policy keys)
    (found : Cache.findHit? lines tag = some way)
    (isWrite : Bool) :
    tag * numSets + set ∈ keys ∧
      SetFollows numSets associativity set
        (lines.modify way fun line =>
          { line with dirty := isWrite || line.dirty })
        (policy.onAccess way)
        ((touch keys (tag * numSets + set)).take associativity) := by
  obtain ⟨used, free, rfl, arranged⟩ := follows
  obtain ⟨isUsed, isKey⟩ := arranged.findHit?_some found
  have member : tag * numSets + set ∈ keys := by
    rw [arranged.held, ← isKey]
    exact List.mem_map_of_mem isUsed
  refine ⟨member, ?_⟩
  have kept := modify_kept lines way isWrite
  have inside := arranged.mem_ways.mp (List.mem_append_left free isUsed)
  have sameKey :
      keyAt numSets set
          (lines.modify way fun line =>
            { line with dirty := isWrite || line.dirty })
          way =
        tag * numSets + set := by
    rw [← isKey, keyAt, keyAt, (kept way).2]
  obtain ⟨accessed, moved⟩ :=
    arranged.move inside
      (by rw [List.length_modify, arranged.length])
      (by rw [(kept way).1]; exact arranged.valid way isUsed)
      (fun other _ => kept other)
      (fun other otherUsed notWay same =>
        notWay
          (arranged.key_inj otherUsed isUsed
            (same.trans (sameKey.trans isKey.symm))))
  have size := moved.length_le
  rw [sameKey, ← arranged.touch_used isUsed isKey] at moved size
  rw [List.take_of_length_le (by omega)]
  exact ⟨_, _, congrArg ReplacementPolicy.lru accessed, moved⟩

/-- What is written at an index is found there, and all else is as before. -/
theorem getD_set
    {α : Type}
    {values : List α}
    {index : Nat}
    (inside : index < values.length)
    (value default : α)
    (other : Nat) :
    (values.set index value).getD other default =
      if other = index then value else values.getD other default := by
  rw [List.getD_eq_getElem?_getD, List.getD_eq_getElem?_getD,
    List.getElem?_set]
  by_cases same : index = other
  · subst same
    simp [inside]
  · rw [if_neg same, if_neg (Ne.symm same)]

/-- Filling a way with a new line puts its key to the front. -/
theorem Arranged.fill
    {way : Nat}
    {used free : List Nat}
    (arranged :
      Arranged numSets associativity set lines used free keys)
    (inside : way < associativity)
    (missing : tag * numSets + set ∉ keys)
    (isWrite : Bool) :
    LRUPolicy.onAccess ⟨used ++ free⟩ way =
        ⟨(way :: used.filter (· ≠ way)) ++ free.filter (· ≠ way)⟩ ∧
      Arranged numSets associativity set
        (lines.set way { valid := true, tag := tag, dirty := isWrite })
        (way :: used.filter (· ≠ way)) (free.filter (· ≠ way))
        ((tag * numSets + set) ::
          (used.filter (· ≠ way)).map (keyAt numSets set lines)) := by
  have written :=
    @getD_set _ lines way (arranged.length ▸ inside)
      { valid := true, tag := tag, dirty := isWrite } {}
  have isKey :
      keyAt numSets set
          (lines.set way { valid := true, tag := tag, dirty := isWrite })
          way =
        tag * numSets + set := by
    rw [keyAt, written, if_pos rfl]
  have isValid :
      ((lines.set way
          { valid := true, tag := tag, dirty := isWrite }).getD way
        {}).valid = true := by
    rw [written, if_pos rfl]
  have moved :=
    arranged.move inside
      (by rw [List.length_set, arranged.length])
      isValid
      (fun other notWay => by
        rw [written, if_neg notWay]
        exact ⟨rfl, rfl⟩)
      (fun other otherUsed _ same => by
        refine missing ?_
        rw [← isKey, ← same, arranged.held]
        exact List.mem_map_of_mem otherUsed)
  rwa [isKey] at moved

/-- Filling a free way adds its key. -/
theorem Arranged.fill_free
    {way : Nat}
    {used free : List Nat}
    (arranged :
      Arranged numSets associativity set lines used free keys)
    (invalid : firstInvalid? lines = some way)
    (missing : tag * numSets + set ∉ keys)
    (isWrite : Bool) :
    LRUPolicy.onAccess ⟨used ++ free⟩ way =
        ⟨(way :: used) ++ free.filter (· ≠ way)⟩ ∧
      Arranged numSets associativity set
        (lines.set way { valid := true, tag := tag, dirty := isWrite })
        (way :: used) (free.filter (· ≠ way))
        (((tag * numSets + set) :: keys).take associativity) := by
  obtain ⟨inside, isFree, notUsed⟩ := arranged.firstInvalid?_some invalid
  have filled := arranged.fill inside missing isWrite
  rw [filter_of_not_mem notUsed, ← arranged.held] at filled
  have room : ((tag * numSets + set) :: keys).length ≤ associativity := by
    have size := arranged.length_le
    have positiveFree := List.length_pos_of_mem isFree
    rw [List.length_cons]
    omega
  rwa [List.take_of_length_le room]

/-- Filling the oldest way of a full set replaces its key. -/
theorem Arranged.fill_oldest
    {recent : List Nat}
    {oldest : Nat}
    (arranged :
      Arranged numSets associativity set lines (recent ++ [oldest]) [] keys)
    (inside : oldest < associativity)
    (notRecent : oldest ∉ recent)
    (missing : tag * numSets + set ∉ keys)
    (isWrite : Bool) :
    LRUPolicy.onAccess ⟨(recent ++ [oldest]) ++ []⟩ oldest =
        ⟨(oldest :: recent) ++ []⟩ ∧
      Arranged numSets associativity set
        (lines.set oldest { valid := true, tag := tag, dirty := isWrite })
        (oldest :: recent) []
        (((tag * numSets + set) :: keys).take associativity) := by
  have filled := arranged.fill inside missing isWrite
  have others :
      (recent ++ [oldest]).filter (· ≠ oldest) = recent := by
    rw [List.filter_append, filter_of_not_mem notRecent]
    simp
  rw [others, List.filter_nil] at filled
  refine ⟨filled.1, ?_⟩
  have full := arranged.length_le
  have held := arranged.held
  rw [List.map_append] at held
  rw [held, List.length_append, List.length_map] at full
  rw [held, ← List.cons_append, List.take_append_of_le_length]
  · rw [List.take_of_length_le]
    · exact filled.2
    · rw [List.length_cons, List.length_map]
      exact full.le
  · rw [List.length_cons, List.length_map]
    exact full.ge

/-- A miss replaces the least recent line, once all ways are filled. -/
theorem SetFollows.miss
    (follows : SetFollows numSets associativity set lines policy keys)
    (positiveSets : 0 < numSets)
    (positive : 0 < associativity)
    (missed : Cache.findHit? lines tag = none)
    (isWrite : Bool) :
    tag * numSets + set ∉ keys ∧
      ∃ way chosen,
        policy.chooseVictim lines = .ok (way, chosen) ∧
          way < associativity ∧
          SetFollows numSets associativity set
            (lines.set way
              { valid := true, tag := tag, dirty := isWrite })
            (chosen.onAccess way)
            ((touch keys (tag * numSets + set)).take associativity) := by
  obtain ⟨used, free, rfl, arranged⟩ := follows
  have missing := arranged.findHit?_none positiveSets missed
  refine ⟨missing, ?_⟩
  rw [touch_of_not_mem missing]
  have victim (way : Nat) :
      (LRUPolicy.mk (used ++ free)).chooseVictim lines =
          .ok (way, ⟨used ++ free⟩) →
        (ReplacementPolicy.lru ⟨used ++ free⟩).chooseVictim lines =
          .ok (way, .lru ⟨used ++ free⟩) := by
    intro chosen
    rw [ReplacementPolicy.chooseVictim, chosen]
    rfl
  cases invalid : firstInvalid? lines with
  | some way =>
      obtain ⟨accessed, filled⟩ :=
        arranged.fill_free invalid missing isWrite
      have nonempty : used ++ free ≠ [] :=
        List.append_ne_nil_of_right_ne_nil used
          (List.ne_nil_of_mem (arranged.firstInvalid?_some invalid).2.1)
      refine
        ⟨way, _, victim way ?_, (arranged.firstInvalid?_some invalid).1,
          way :: used, free.filter (· ≠ way),
          congrArg ReplacementPolicy.lru accessed, filled⟩
      rw [LRUPolicy.chooseVictim,
        List.getLast?_eq_getLast_of_ne_nil nonempty, invalid]
  | none =>
      -- Every way is valid, so that the last one holds the oldest key.
      obtain rfl := arranged.firstInvalid?_none invalid
      obtain ⟨recent, oldest, rfl, inside, notRecent⟩ :=
        arranged.exists_oldest positive
      obtain ⟨accessed, filled⟩ :=
        arranged.fill_oldest inside notRecent missing isWrite
      refine
        ⟨oldest, _, victim oldest ?_, inside, oldest :: recent, [],
          congrArg ReplacementPolicy.lru accessed, filled⟩
      rw [LRUPolicy.chooseVictim, List.append_nil, List.getLast?_concat,
        invalid]

end Step

section WholeCache

/-- One request to a cache: an address, and whether it is a write. -/
structure Request where
  address : Nat
  isWrite : Bool
  deriving Repr, DecidableEq

/-- Serve a request. -/
def Request.perform (request : Request) : CacheM CacheAccessResult :=
  if request.isWrite then
    Cache.write request.address
  else
    Cache.access request.address

/-- Either operation looks the address up. -/
theorem Request.perform_eq (request : Request) :
    request.perform =
      Cache.lookupAndFill request.address request.isWrite := by
  obtain ⟨address, isWrite⟩ := request
  cases isWrite with
  | false => rfl
  | true => rfl

/-- The results of a trace of requests, and the cache it leaves. -/
def performAll (requests : List Request) : CacheM (List CacheAccessResult) :=
  requests.mapM Request.perform

/-- Requests in a row, one of them in the middle. -/
theorem performAll_split
    {before later : List Request}
    {request : Request}
    {first rest : List CacheAccessResult}
    {result : CacheAccessResult}
    {cache prior next after : Cache}
    (ranFirst : performAll before cache = .ok first prior)
    (ran : request.perform prior = .ok result next)
    (ranRest : performAll later next = .ok rest after) :
    performAll (before ++ request :: later) cache =
      .ok (first ++ result :: rest) after := by
  induction before generalizing cache first with
  | nil =>
      rw [performAll, List.mapM_nil, Outcome.state_pure_ok] at ranFirst
      obtain ⟨rfl, rfl⟩ := ranFirst
      rw [List.nil_append, performAll, List.mapM_cons,
        Outcome.state_bind_ok]
      refine ⟨result, next, ran, ?_⟩
      rw [Outcome.state_bind_ok]
      exact ⟨rest, after, ranRest, rfl⟩
  | cons head before inductionHypothesis =>
      rw [performAll, List.mapM_cons, Outcome.state_bind_ok] at ranFirst
      obtain ⟨headResult, middle, ranHead, others⟩ := ranFirst
      rw [Outcome.state_bind_ok] at others
      obtain ⟨firstRest, _, ranBefore, ended⟩ := others
      obtain ⟨rfl, rfl⟩ := Outcome.state_pure_ok.mp ended
      rw [List.cons_append, performAll, List.mapM_cons,
        Outcome.state_bind_ok]
      refine ⟨headResult, middle, ranHead, ?_⟩
      rw [Outcome.state_bind_ok]
      exact ⟨_, after, inductionHypothesis ranBefore, rfl⟩

/--
Where each request succeeds and extends what holds of the cache and the log so
far, a trace runs to its end.
-/
theorem performAll_run
    {holds : Cache → List (Request × CacheAccessResult) → Prop}
    (step :
      ∀ {cache log},
        holds cache log →
        ∀ request : Request,
          ∃ result after,
            request.perform cache = .ok result after ∧
              holds after (log ++ [(request, result)]))
    {cache : Cache}
    {log : List (Request × CacheAccessResult)}
    (start : holds cache log)
    (requests : List Request) :
    ∃ results after,
      performAll requests cache = .ok results after ∧
        results.length = requests.length ∧
        holds after (log ++ requests.zip results) := by
  induction requests generalizing cache log with
  | nil => exact ⟨[], cache, rfl, rfl, by rwa [List.zip_nil_left, List.append_nil]⟩
  | cons request rest inductionHypothesis =>
      obtain ⟨result, middle, ran, now⟩ := step start request
      obtain ⟨results, after, ranRest, length, last⟩ :=
        inductionHypothesis now
      refine ⟨result :: results, after, ?_, ?_, ?_⟩
      · exact @performAll_split [] rest request [] _ _ _ _ _ _ rfl ran ranRest
      · rw [List.length_cons, List.length_cons, length]
      · rwa [List.append_assoc] at last

/-- The line number a request is for. -/
def lineOf (lineSize : Nat) (request : Request) : Nat :=
  request.address / lineSize

/-- The lines of a history that map to a set. -/
def ofSet (numSets set : Nat) (history : List Nat) : List Nat :=
  history.filter (· % numSets = set)

/-- Every set of a cache and its policy have a property. -/
structure EverySet
    (holds : Nat → List CacheLine → ReplacementPolicy → Prop)
    (cache : Cache) : Prop where
  sets : cache.sets.length = cache.numSets
  policies : cache.policies.length = cache.numSets
  every :
    ∀ set < cache.numSets,
      ∃ policy,
        cache.policies[set]? = some policy ∧
          holds set (cache.sets.getD set []) policy

/-- A weaker property holds of every set as well. -/
theorem EverySet.mono
    {holds weaker : Nat → List CacheLine → ReplacementPolicy → Prop}
    {cache : Cache}
    (every : EverySet holds cache)
    (weakens :
      ∀ set lines policy, holds set lines policy → weaker set lines policy) :
    EverySet weaker cache := by
  refine ⟨every.sets, every.policies, fun set inside => ?_⟩
  obtain ⟨policy, isPolicy, isHeld⟩ := every.every set inside
  exact ⟨policy, isPolicy, weakens _ _ _ isHeld⟩

/-- Replacing one set of a cache leaves the others as they are. -/
theorem EverySet.replace
    {holds next : Nat → List CacheLine → ReplacementPolicy → Prop}
    {cache after : Cache}
    (every : EverySet holds cache)
    {set : Nat}
    {lines : List CacheLine}
    {policy : ReplacementPolicy}
    (written : next set lines policy)
    (others :
      ∀ other,
        other ≠ set →
        ∀ lines policy, holds other lines policy → next other lines policy)
    (numSets : after.numSets = cache.numSets)
    (sets : after.sets = cache.sets.set set lines)
    (policies : after.policies = cache.policies.set set policy) :
    EverySet next after := by
  refine ⟨?_, ?_, fun other otherInside => ?_⟩
  · rw [sets, List.length_set, every.sets, numSets]
  · rw [policies, List.length_set, every.policies, numSets]
  rw [numSets] at otherInside
  rw [sets, policies]
  by_cases same : set = other
  · subst same
    refine ⟨policy, ?_, ?_⟩
    · rw [List.getElem?_set_self (by rwa [every.policies])]
    · rw [List.getD_eq_getElem?_getD,
        List.getElem?_set_self (by rwa [every.sets])]
      exact written
  · obtain ⟨kept, isKept, isHeld⟩ := every.every other otherInside
    refine ⟨kept, ?_, ?_⟩
    · rw [List.getElem?_set_ne same, isKept]
    · rw [List.getD_eq_getElem?_getD, List.getElem?_set_ne same,
        ← List.getD_eq_getElem?_getD]
      exact others other (Ne.symm same) _ _ isHeld

/-- A cache is built with every set empty and every policy fresh. -/
theorem everySet_new
    {numSets associativity lineSize : Nat}
    {policyName : String}
    {rng : Nat → Nat → Nat}
    {fresh : Nat → ReplacementPolicy}
    (dimensions : 0 < numSets ∧ 0 < associativity ∧ 0 < lineSize)
    (supported :
      ∀ set,
        ReplacementPolicy.new associativity policyName (rng set) =
          .ok (fresh set)) :
    ∃ cache,
      Cache.new numSets associativity lineSize policyName rng = .ok cache ∧
        EverySet
          (fun set lines policy =>
            lines = List.replicate associativity {} ∧ policy = fresh set)
          cache ∧
        cache.numSets = numSets ∧
        cache.associativity = associativity ∧
        cache.lineSize = lineSize ∧
        cache.stats = {} := by
  have allowed : ¬ (numSets = 0 ∨ associativity = 0 ∨ lineSize = 0) := by
    omega
  have built :
      ((List.range numSets).mapM fun set =>
          ReplacementPolicy.new associativity policyName (rng set)) =
        .ok ((List.range numSets).map fresh) := by
    induction List.range numSets with
    | nil => rfl
    | cons set sets inductionHypothesis =>
        rw [List.mapM_cons, inductionHypothesis, supported]
        rfl
  refine
    ⟨{ numSets := numSets
       associativity := associativity
       lineSize := lineSize
       stats := {}
       sets := List.replicate numSets (List.replicate associativity {})
       policies := (List.range numSets).map fresh },
      by rw [Cache.new, if_neg allowed, built]; rfl, ?_, rfl, rfl, rfl, rfl⟩
  refine ⟨List.length_replicate, by simp, fun set inside => ?_⟩
  change set < numSets at inside
  refine ⟨fresh set, ?_, ?_, rfl⟩
  · rw [List.getElem?_map, List.getElem?_range inside]
    rfl
  · rw [List.getD_eq_getElem?_getD, List.getElem?_replicate_of_lt inside,
      Option.getD_some]

/-- A cache holds the most recent lines of a history, in every set. -/
structure Follows (cache : Cache) (history : List Nat) : Prop where
  sets : cache.sets.length = cache.numSets
  policies : cache.policies.length = cache.numSets
  every :
    ∀ set < cache.numSets,
      ∃ policy,
        cache.policies[set]? = some policy ∧
          SetFollows cache.numSets cache.associativity set
            (cache.sets.getD set []) policy
            ((recency (ofSet cache.numSets set history)).take
              cache.associativity)

/-- That is a property of every set. -/
theorem follows_iff
    {cache : Cache}
    {history : List Nat} :
    Follows cache history ↔
      EverySet
        (fun set lines policy =>
          SetFollows cache.numSets cache.associativity set lines policy
            ((recency (ofSet cache.numSets set history)).take
              cache.associativity))
        cache :=
  ⟨fun follows => ⟨follows.sets, follows.policies, follows.every⟩,
    fun every => ⟨every.sets, every.policies, every.every⟩⟩

/-- The ways of a fresh set hold nothing. -/
theorem arranged_new
    (numSets associativity set : Nat) :
    Arranged numSets associativity set
      (List.replicate associativity {}) []
      (List.range associativity) [] := by
  refine ⟨List.Perm.refl _, List.length_replicate, nofun, ?_, rfl,
    List.nodup_nil⟩
  intro way isFree
  rw [List.getD_eq_getElem?_getD,
    List.getElem?_replicate_of_lt (List.mem_range.mp isFree)]
  rfl

/-- A fresh cache holds the lines of the empty history. -/
theorem follows_new
    {numSets associativity lineSize : Nat}
    (dimensions : 0 < numSets ∧ 0 < associativity ∧ 0 < lineSize)
    (rng : Nat → Nat → Nat) :
    ∃ cache,
      Cache.new numSets associativity lineSize "LRU" rng = .ok cache ∧
        Follows cache [] ∧
        cache.numSets = numSets ∧
        cache.associativity = associativity ∧
        cache.lineSize = lineSize := by
  obtain ⟨cache, built, every, rfl, rfl, rfl, _⟩ :=
    @everySet_new _ _ _ "LRU" rng
      (fun _ => .lru (LRUPolicy.new associativity)) dimensions
      (fun _ => rfl)
  refine ⟨cache, built, follows_iff.mpr (every.mono ?_), rfl, rfl, rfl⟩
  rintro set lines policy ⟨rfl, rfl⟩
  change
    SetFollows cache.numSets cache.associativity set
      (List.replicate cache.associativity {})
      (.lru (LRUPolicy.new cache.associativity))
      (List.take cache.associativity [])
  rw [List.take_nil]
  exact ⟨[], List.range _, rfl, arranged_new _ _ set⟩

/-- A line number is made of its tag and its set. -/
theorem tagOf_setIndex
    (cache : Cache)
    (address : Nat) :
    cache.tagOf address * cache.numSets + cache.setIndex address =
      address / cache.lineSize :=
  Nat.div_add_mod' (address / cache.lineSize) cache.numSets

/-- Using a line changes the recent lines of its own set only. -/
theorem ofSet_snoc
    (numSets set line : Nat)
    (history : List Nat) :
    ofSet numSets set (history ++ [line]) =
      if line % numSets = set then
        ofSet numSets set history ++ [line]
      else
        ofSet numSets set history := by
  rw [ofSet, ofSet, List.filter_append]
  by_cases same : line % numSets = set
  · simp [same]
  · simp [same]

/-- Replacing one set of a cache keeps it following the history. -/
theorem Follows.replace
    {cache after : Cache}
    {history : List Nat}
    (follows : Follows cache history)
    {set line : Nat}
    {lines : List CacheLine}
    {policy : ReplacementPolicy}
    (isSet : line % cache.numSets = set)
    (written :
      SetFollows cache.numSets cache.associativity set lines policy
        ((touch
              ((recency (ofSet cache.numSets set history)).take
                cache.associativity)
              line).take
          cache.associativity))
    (numSets : after.numSets = cache.numSets)
    (associativity : after.associativity = cache.associativity)
    (sets : after.sets = cache.sets.set set lines)
    (policies : after.policies = cache.policies.set set policy) :
    Follows after (history ++ [line]) := by
  rw [follows_iff] at follows ⊢
  refine follows.replace ?_ (fun other notSet lines policy holds => ?_)
    numSets sets policies
  · rw [numSets, associativity, ofSet_snoc, isSet, if_pos rfl, recency_snoc,
      ← touch_take (nodup_recency _)]
    exact written
  · rw [numSets, associativity, ofSet_snoc, isSet, if_neg (Ne.symm notSet)]
    exact holds

/-- A lookup succeeds, hits the recent lines and records its own. -/
theorem Follows.lookup
    {cache : Cache}
    {history : List Nat}
    (follows : Follows cache history)
    (positiveSets : 0 < cache.numSets)
    (positive : 0 < cache.associativity)
    (address : Nat)
    (isWrite : Bool) :
    ∃ result after,
      Cache.lookupAndFill address isWrite cache = .ok result after ∧
        (result.hit = true ↔
          address / cache.lineSize ∈
            (recency
                (ofSet cache.numSets
                  (address / cache.lineSize % cache.numSets) history)).take
              cache.associativity) ∧
        Follows after (history ++ [address / cache.lineSize]) ∧
        after.numSets = cache.numSets ∧
        after.associativity = cache.associativity ∧
        after.lineSize = cache.lineSize := by
  have inside : cache.setIndex address < cache.numSets :=
    Nat.mod_lt _ positiveSets
  obtain ⟨policy, isPolicy, holds⟩ := follows.every _ inside
  have isLine := tagOf_setIndex cache address
  cases found :
      Cache.findHit? (cache.sets.getD (cache.setIndex address) [])
        (cache.tagOf address) with
  | some way =>
      obtain ⟨member, written⟩ := holds.hit found isWrite
      rw [isLine] at member written
      refine
        ⟨_, _, Cache.lookupAndFill_hit isPolicy found isWrite, ?_, ?_, rfl,
          rfl, rfl⟩
      · exact iff_of_true rfl member
      · exact follows.replace rfl written rfl rfl rfl rfl
  | none =>
      obtain ⟨missing, way, chosen, isVictim, _, written⟩ :=
        holds.miss positiveSets positive found isWrite
      rw [isLine] at missing written
      refine
        ⟨_, _, Cache.lookupAndFill_miss isPolicy found isVictim isWrite, ?_,
          ?_, rfl, rfl, rfl⟩
      · exact iff_of_false Bool.false_ne_true missing
      · exact follows.replace rfl written rfl rfl rfl rfl

/--
A line is among the recent ones of its set exactly when it was used before and
few other lines of the set were used since.
-/
theorem mem_recent_iff
    {numSets associativity line : Nat}
    {history : List Nat} :
    line ∈
        (recency (ofSet numSets (line % numSets) history)).take
          associativity ↔
      ∃ earlier later,
        history = earlier ++ line :: later ∧ line ∉ later ∧
          (ofSet numSets (line % numSets) later).toFinset.card <
            associativity := by
  rw [mem_take_recency]
  have inSet {later : List Nat} :
      line ∈ ofSet numSets (line % numSets) later ↔ line ∈ later := by
    rw [ofSet, List.mem_filter, decide_eq_true_eq]
    exact and_iff_left rfl
  constructor
  · rintro ⟨earlier, later, shape, last, few⟩
    rw [ofSet, List.filter_eq_append_iff] at shape
    obtain ⟨before, after, rfl, rfl, afterShape⟩ := shape
    obtain ⟨between, since, rfl, _, _, rfl⟩ :=
      List.filter_eq_cons_iff.mp afterShape
    refine ⟨before ++ between, since, ?_, inSet.not.mp last, few⟩
    rw [List.append_assoc]
  · rintro ⟨earlier, later, rfl, last, few⟩
    refine
      ⟨ofSet numSets (line % numSets) earlier,
        ofSet numSets (line % numSets) later, ?_, inSet.not.mpr last, few⟩
    rw [ofSet, List.filter_append, List.filter_cons, if_pos (by simp)]
    rfl

/--
A request for a line used before in the trace, with fewer than `associativity`
distinct other lines of its set used since.
-/
def RecentlyUsed
    (numSets associativity lineSize : Nat)
    (earlier : List Request)
    (line : Nat) : Prop :=
  ∃ before last since,
    earlier = before ++ last :: since ∧
      lineOf lineSize last = line ∧
      (∀ request ∈ since, lineOf lineSize request ≠ line) ∧
      ((since.map (lineOf lineSize)).filter
          (· % numSets = line % numSets)).toFinset.card <
        associativity

/-- Recent use in a trace is recent use of its lines. -/
theorem recentlyUsed_iff
    {numSets associativity lineSize line : Nat}
    {earlier : List Request} :
    RecentlyUsed numSets associativity lineSize earlier line ↔
      line ∈
        (recency
            (ofSet numSets (line % numSets)
              (earlier.map (lineOf lineSize)))).take associativity := by
  rw [mem_recent_iff]
  constructor
  · rintro ⟨before, last, since, rfl, isLine, others, few⟩
    refine
      ⟨before.map (lineOf lineSize), since.map (lineOf lineSize), ?_, ?_,
        few⟩
    · rw [List.map_append, List.map_cons, isLine]
    · rw [List.mem_map]
      rintro ⟨request, isSince, same⟩
      exact others request isSince same
  · rintro ⟨earlierLines, laterLines, shape, last, few⟩
    obtain ⟨before, after, rfl, rfl, afterShape⟩ :=
      List.map_eq_append_iff.mp shape
    obtain ⟨use, since, rfl, isLine, rfl⟩ :=
      List.map_eq_cons_iff.mp afterShape
    refine ⟨before, use, since, rfl, isLine, ?_, few⟩
    intro request isSince same
    exact last (List.mem_map.mpr ⟨request, isSince, same⟩)

/-- A trace runs to its end, and each request hits the recent lines. -/
theorem Follows.run
    {cache : Cache}
    {earlier : List Request}
    (follows : Follows cache (earlier.map (lineOf cache.lineSize)))
    (positiveSets : 0 < cache.numSets)
    (positive : 0 < cache.associativity)
    (requests : List Request) :
    ∃ results after,
      performAll requests cache = .ok results after ∧
        results.length = requests.length ∧
        ∀ before request later,
          requests = before ++ request :: later →
            ∃ result,
              results[before.length]? = some result ∧
                (result.hit = true ↔
                  RecentlyUsed cache.numSets cache.associativity
                    cache.lineSize (earlier ++ before)
                    (lineOf cache.lineSize request)) := by
  induction requests generalizing cache earlier with
  | nil =>
      refine ⟨[], cache, rfl, rfl, fun before request later shape => ?_⟩
      exact absurd shape.symm (by simp)
  | cons first rest inductionHypothesis =>
      obtain ⟨result, middle, ran, isHit, followed, sameSets, sameWays,
        sameSize⟩ :=
        follows.lookup positiveSets positive first.address first.isWrite
      have now :
          Follows middle
            ((earlier ++ [first]).map (lineOf middle.lineSize)) := by
        rw [sameSize, List.map_append]
        exact followed
      obtain ⟨results, after, others, length, hits⟩ :=
        inductionHypothesis now (sameSets ▸ positiveSets)
          (sameWays ▸ positive)
      refine ⟨result :: results, after, ?_, ?_, ?_⟩
      · rw [performAll, List.mapM_cons, Outcome.state_bind_ok]
        refine ⟨result, middle, by rw [first.perform_eq, ran], ?_⟩
        rw [Outcome.state_bind_ok]
        exact ⟨results, after, others, rfl⟩
      · rw [List.length_cons, List.length_cons, length]
      · intro before request later shape
        cases before with
        | nil =>
            obtain ⟨rfl, rfl⟩ := List.cons.inj shape
            refine ⟨result, rfl, ?_⟩
            rw [List.append_nil, recentlyUsed_iff]
            exact isHit
        | cons head before =>
            obtain ⟨rfl, restShape⟩ := List.cons.inj shape
            obtain ⟨other, isOther, otherHit⟩ :=
              hits before request later restShape
            refine ⟨other, isOther, ?_⟩
            rw [otherHit, sameSets, sameWays, sameSize, List.append_assoc]
            rfl

/--
Every trace of accesses to a fresh LRU cache runs to its end, and an access
hits exactly when its line was accessed before with fewer than `associativity`
distinct other lines of its set since.
-/
theorem hit_iff_recentlyUsed
    {numSets associativity lineSize : Nat}
    (dimensions : 0 < numSets ∧ 0 < associativity ∧ 0 < lineSize)
    (rng : Nat → Nat → Nat)
    (requests : List Request) :
    ∃ cache results after,
      Cache.new numSets associativity lineSize "LRU" rng = .ok cache ∧
        performAll requests cache = .ok results after ∧
        results.length = requests.length ∧
        ∀ before request later,
          requests = before ++ request :: later →
            ∃ result,
              results[before.length]? = some result ∧
                (result.hit = true ↔
                  RecentlyUsed numSets associativity lineSize before
                    (lineOf lineSize request)) := by
  obtain ⟨cache, built, follows, rfl, rfl, rfl⟩ :=
    follows_new dimensions rng
  obtain ⟨results, after, ran, length, hits⟩ :=
    @Follows.run cache [] follows dimensions.1 dimensions.2.1 requests
  exact ⟨cache, results, after, built, ran, length, hits⟩

/-- In a two-way set, the first line is still there after the second. -/
theorem hit_iff_recentlyUsed_two_ways :
    ∃ cache results after,
      Cache.new 1 2 4 "LRU" (fun _ _ => 0) = .ok cache ∧
        performAll
            [⟨0, false⟩, ⟨4, true⟩, ⟨1, false⟩, ⟨8, false⟩, ⟨5, false⟩]
            cache = .ok results after ∧
        results.length = 5 ∧
        ∃ result, results[2]? = some result ∧ result.hit = true := by
  obtain ⟨cache, results, after, built, ran, length, hits⟩ :=
    @hit_iff_recentlyUsed 1 2 4 (by decide) (fun _ _ => 0)
      [⟨0, false⟩, ⟨4, true⟩, ⟨1, false⟩, ⟨8, false⟩, ⟨5, false⟩]
  obtain ⟨result, isResult, isHit⟩ :=
    hits [⟨0, false⟩, ⟨4, true⟩] ⟨1, false⟩ [⟨8, false⟩, ⟨5, false⟩] rfl
  refine
    ⟨cache, results, after, built, ran, length, result, isResult,
      isHit.mpr ?_⟩
  exact ⟨[], ⟨0, false⟩, [⟨4, true⟩], rfl, rfl, by decide, by decide⟩

/-! ## Larger caches -/

/-- What is recent for a cache is recent for one with more sets or ways. -/
theorem RecentlyUsed.larger
    {numSets associativity lineSize line : Nat}
    {largerSets largerAssociativity : Nat}
    {earlier : List Request}
    (recent : RecentlyUsed numSets associativity lineSize earlier line)
    (moreSets : numSets ∣ largerSets)
    (moreWays : associativity ≤ largerAssociativity) :
    RecentlyUsed largerSets largerAssociativity lineSize earlier line := by
  obtain ⟨before, last, since, shape, isLine, others, few⟩ := recent
  refine ⟨before, last, since, shape, isLine, others, ?_⟩
  -- the lines of a set of the larger cache all map to one set of the other
  have fewer :
      ((since.map (lineOf lineSize)).filter
          (· % largerSets = line % largerSets)).toFinset ⊆
        ((since.map (lineOf lineSize)).filter
          (· % numSets = line % numSets)).toFinset := by
    intro other member
    rw [List.mem_toFinset, List.mem_filter, decide_eq_true_eq] at member ⊢
    refine ⟨member.1, ?_⟩
    calc
      other % numSets = other % largerSets % numSets :=
        (Nat.mod_mod_of_dvd other moreSets).symm
      _ = line % largerSets % numSets := by rw [member.2]
      _ = line % numSets := Nat.mod_mod_of_dvd line moreSets
  calc
    _ ≤ _ := Finset.card_le_card fewer
    _ < associativity := few
    _ ≤ largerAssociativity := moreWays

/--
On every trace an LRU cache hits wherever one with fewer ways, or with a divisor
of its number of sets, does.
-/
theorem larger_hits_more
    {numSets associativity lineSize largerSets largerAssociativity : Nat}
    (dimensions : 0 < numSets ∧ 0 < associativity ∧ 0 < lineSize)
    (hasSets : 0 < largerSets)
    (moreSets : numSets ∣ largerSets)
    (moreWays : associativity ≤ largerAssociativity)
    (rng largerRng : Nat → Nat → Nat)
    (requests : List Request) :
    ∃ cache results after larger largerResults largerAfter,
      Cache.new numSets associativity lineSize "LRU" rng = .ok cache ∧
        Cache.new largerSets largerAssociativity lineSize "LRU" largerRng =
          .ok larger ∧
        performAll requests cache = .ok results after ∧
        performAll requests larger = .ok largerResults largerAfter ∧
        List.Forall₂
          (fun result largerResult =>
            result.hit = true → largerResult.hit = true)
          results largerResults := by
  obtain ⟨cache, built, follows, isSets, isWays, isSize⟩ :=
    follows_new dimensions rng
  obtain ⟨larger, largerBuilt, largerFollows, isLargerSets, isLargerWays,
    isLargerSize⟩ :=
    @follows_new largerSets largerAssociativity lineSize
      ⟨hasSets, dimensions.2.1.trans_le moreWays, dimensions.2.2⟩ largerRng
  obtain ⟨results, after, ran, length, hits⟩ :=
    @Follows.run cache [] follows (isSets ▸ dimensions.1)
      (isWays ▸ dimensions.2.1) requests
  obtain ⟨largerResults, largerAfter, largerRan, largerLength, largerHits⟩ :=
    @Follows.run larger [] largerFollows (isLargerSets ▸ hasSets)
      (isLargerWays ▸ dimensions.2.1.trans_le moreWays) requests
  refine
    ⟨cache, results, after, larger, largerResults, largerAfter, built,
      largerBuilt, ran, largerRan, ?_⟩
  rw [List.forall₂_iff_get]
  refine ⟨length.trans largerLength.symm, fun index inside largerInside => ?_⟩
  have isRequest : index < requests.length := length ▸ inside
  have shape :
      requests =
        requests.take index ++ requests[index] :: requests.drop (index + 1) := by
    rw [List.getElem_cons_drop, List.take_append_drop]
  have position : (requests.take index).length = index :=
    List.length_take_of_le isRequest.le
  obtain ⟨result, isResult, isHit⟩ := hits _ _ _ shape
  obtain ⟨largerResult, isLargerResult, isLargerHit⟩ := largerHits _ _ _ shape
  rw [position, List.getElem?_eq_getElem inside] at isResult
  rw [position, List.getElem?_eq_getElem largerInside] at isLargerResult
  obtain rfl := Option.some.inj isResult
  obtain rfl := Option.some.inj isLargerResult
  intro hit
  rw [isSets, isWays, isSize] at isHit
  rw [isLargerSets, isLargerWays, isLargerSize] at isLargerHit
  exact isLargerHit.mpr ((isHit.mp hit).larger moreSets moreWays)

/-- Four ways in two sets hit where two ways in one set do. -/
theorem larger_hits_more_two_ways :
    ∃ cache results after larger largerResults largerAfter,
      Cache.new 1 2 4 "LRU" (fun _ _ => 0) = .ok cache ∧
        Cache.new 2 4 4 "LRU" (fun _ _ => 0) = .ok larger ∧
        performAll
            [⟨0, false⟩, ⟨4, true⟩, ⟨1, false⟩, ⟨8, false⟩, ⟨5, false⟩]
            cache = .ok results after ∧
        performAll
            [⟨0, false⟩, ⟨4, true⟩, ⟨1, false⟩, ⟨8, false⟩, ⟨5, false⟩]
            larger = .ok largerResults largerAfter ∧
        List.Forall₂
          (fun result largerResult =>
            result.hit = true → largerResult.hit = true)
          results largerResults :=
  larger_hits_more (by decide) (by decide) (by decide) (by decide) _ _ _

end WholeCache

end Lru

end SimSm
