import Mathlib.Data.List.Sort
import SimSm.Warp

namespace SimSm

/-!
# Warp schedulers

A scheduler selects a warp of a vector by its position.  The six policies keep
the state their classes keep between calls.
-/

/-- The scheduler interface: the selected position and the scheduler after it. -/
class WarpScheduler (σ : Type) where
  selectWarp : σ → List Warp → Option Nat × σ

/-- The interface's contract: a selected warp exists and is ready. -/
class LawfulWarpScheduler (σ : Type) [WarpScheduler σ] : Prop where
  selected_ready :
    ∀ {scheduler : σ} {warps : List Warp} {index : Nat},
      (WarpScheduler.selectWarp scheduler warps).1 = some index →
      ∃ warp,
        warps[index]? = some warp ∧ warp.state = .ready

/-- Whether the warp at a position is ready. -/
def readyAt (warps : List Warp) (index : Nat) : Bool :=
  match warps[index]? with
  | some warp => warp.state == .ready
  | none => false

/-- Round robin over positions. -/
structure RoundRobinScheduler where
  nextWarpIndex : Nat := 0
  deriving Repr, DecidableEq

/-- The first ready position, cyclically from the stored one. -/
def RoundRobinScheduler.selectWarp
    (scheduler : RoundRobinScheduler)
    (warps : List Warp) :
    Option Nat × RoundRobinScheduler :=
  let numWarps := warps.length
  -- the pointer starts at 0 and is set below a vector's length, so that the
  -- `size_t` sum of two lengths cannot wrap
  match
    (List.range numWarps).find? fun i =>
      readyAt warps ((scheduler.nextWarpIndex + i) % numWarps) with
  | none => (none, scheduler)
  | some i =>
      let idx := (scheduler.nextWarpIndex + i) % numWarps
      (some idx, { nextWarpIndex := (idx + 1) % numWarps })

/-- The first ready position. -/
def GreedyScheduler.selectWarp (warps : List Warp) : Option Nat :=
  warps.findIdx? fun warp => warp.state == .ready

/-- Highest priority first, cyclically among equals. -/
structure PriorityScheduler where
  nextWarpIndex : Nat := 0
  deriving Repr, DecidableEq

namespace PriorityScheduler

/-- `numeric_limits<int>::lowest()`. -/
def lowest : Int := -2 ^ 31

/-- One iteration: keep the best position so far and its priority. -/
def consider
    (warps : List Warp)
    (best : Option Nat × Int)
    (idx : Nat) :
    Option Nat × Int :=
  match warps[idx]? with
  | none => best
  | some warp =>
      if warp.state = .ready ∧ best.2 < warp.priority then
        (some idx, warp.priority)
      else
        best

/-- The first position of maximal priority, cyclically from the stored one. -/
def selectWarp
    (scheduler : PriorityScheduler)
    (warps : List Warp) :
    Option Nat × PriorityScheduler :=
  let numWarps := warps.length
  -- the sum cannot wrap, as for the round robin
  let positions :=
    (List.range numWarps).map fun i =>
      (scheduler.nextWarpIndex + i) % numWarps
  match (positions.foldl (consider warps) (none, lowest)).1 with
  | none => (none, scheduler)
  | some bestIdx =>
      (some bestIdx, { nextWarpIndex := (bestIdx + 1) % numWarps })

end PriorityScheduler

/-- Whether a warp precedes another in age order. -/
def olderThan (first second : Warp) : Bool :=
  if first.readySinceCycle < second.readySinceCycle then
    true
  else
    first.readySinceCycle == second.readySinceCycle &&
      decide (first.warpId < second.warpId)

/-- One iteration of the oldest-first loop over a vector. -/
def considerOldest
    (best : Option (Nat × Warp))
    (candidate : Warp × Nat) :
    Option (Nat × Warp) :=
  if candidate.1.state = .ready then
    match best with
    | none => some (candidate.2, candidate.1)
    | some (bestIdx, bestWarp) =>
        if olderThan candidate.1 bestWarp then
          some (candidate.2, candidate.1)
        else
          some (bestIdx, bestWarp)
  else
    best

/-- The oldest ready warp; ties go to the smaller warp id, then position. -/
def oldestReady (warps : List Warp) : Option Nat :=
  (warps.zipIdx.foldl considerOldest none).map Prod.fst

/-- Oldest first is the bare loop. -/
def OldestFirstScheduler.selectWarp (warps : List Warp) : Option Nat :=
  oldestReady warps

/-- Greedy then oldest; the largest `size_t` means that no warp was issued. -/
structure GTOScheduler where
  lastIssuedWarpId : Nat := 2 ^ 64 - 1
  deriving Repr, DecidableEq

/-- The last issued warp id while ready, else the oldest ready warp. -/
def GTOScheduler.selectWarp
    (scheduler : GTOScheduler)
    (warps : List Warp) :
    Option Nat × GTOScheduler :=
  let greedy :=
    if scheduler.lastIssuedWarpId ≠ 2 ^ 64 - 1 then
      warps.findIdx? fun warp =>
        warp.warpId == scheduler.lastIssuedWarpId && warp.state == .ready
    else
      none
  let selected := greedy.or (oldestReady warps)
  match selected.bind (warps[·]?) with
  | some warp => (selected, { lastIssuedWarpId := warp.warpId })
  | none => (none, { lastIssuedWarpId := 2 ^ 64 - 1 })

/-- Two-level scheduling: round robin within a bounded set of warp ids. -/
structure TwoLevelScheduler where
  activeSetSize : Nat
  activeWarpIds : List Nat := []
  rrIndex : Nat := 0
  deriving Repr, DecidableEq

namespace TwoLevelScheduler

/-- Whether the first warp with this id is completed, or there is none. -/
def finished (warps : List Warp) (id : Nat) : Bool :=
  match warps.find? fun warp => warp.warpId == id with
  | some warp => warp.state == .completed
  | none => true

/-- Ready warps whose id is not active, oldest first. -/
def candidates (warps : List Warp) (active : List Nat) : List Warp :=
  (warps.filter fun warp =>
      !active.contains warp.warpId && warp.state == .ready).insertionSort
    fun first second => olderThan second first = false

/-- Drop the ids of finished warps, then admit the oldest candidates. -/
def updateActiveSet
    (scheduler : TwoLevelScheduler)
    (warps : List Warp) :
    TwoLevelScheduler :=
  let active := scheduler.activeWarpIds.filter fun id => !finished warps id
  if active.length < scheduler.activeSetSize then
    { scheduler with
      activeWarpIds :=
        active ++
          ((candidates warps active).take
              (scheduler.activeSetSize - active.length)).map Warp.warpId }
  else
    { scheduler with activeWarpIds := active }

/-- The first ready warp with a given id. -/
def readyWithId? (warps : List Warp) (id : Nat) : Option Nat :=
  warps.findIdx? fun warp => warp.warpId == id && warp.state == .ready

/-- The active id that round robin examines in its `i`-th step. -/
def activeIdAt (scheduler : TwoLevelScheduler) (i : Nat) : Nat :=
  scheduler.activeWarpIds.getD
    ((scheduler.rrIndex + i) % scheduler.activeWarpIds.length) 0

/-- Round robin within the updated active set. -/
def selectWarp
    (scheduler : TwoLevelScheduler)
    (warps : List Warp) :
    Option Nat × TwoLevelScheduler :=
  let updated := scheduler.updateActiveSet warps
  let size := updated.activeWarpIds.length
  match
    (List.range size).find? fun i =>
      (readyWithId? warps (updated.activeIdAt i)).isSome with
  | none => (none, updated)
  | some i =>
      (readyWithId? warps (updated.activeIdAt i),
        { updated with rrIndex := (updated.rrIndex + i + 1) % size })

end TwoLevelScheduler

/-- The scheduler a streaming multiprocessor can be configured with. -/
inductive Scheduler where
  | roundRobin (scheduler : RoundRobinScheduler)
  | greedy
  | priority (scheduler : PriorityScheduler)
  | oldestFirst
  | gto (scheduler : GTOScheduler)
  | twoLevel (scheduler : TwoLevelScheduler)
  deriving Repr, DecidableEq

namespace Scheduler

/-- Dispatch to the policy. -/
def selectWarp
    (scheduler : Scheduler)
    (warps : List Warp) :
    Option Nat × Scheduler :=
  match scheduler with
  | .roundRobin policy =>
      let (selected, next) := policy.selectWarp warps
      (selected, .roundRobin next)
  | .greedy => (GreedyScheduler.selectWarp warps, .greedy)
  | .priority policy =>
      let (selected, next) := policy.selectWarp warps
      (selected, .priority next)
  | .oldestFirst => (OldestFirstScheduler.selectWarp warps, .oldestFirst)
  | .gto policy =>
      let (selected, next) := policy.selectWarp warps
      (selected, .gto next)
  | .twoLevel policy =>
      let (selected, next) := policy.selectWarp warps
      (selected, .twoLevel next)

instance : WarpScheduler Scheduler where
  selectWarp := Scheduler.selectWarp

/-- The scheduler with a policy's name. -/
def create
    (schedulerPolicy : String)
    (activeSetSize : Nat) :
    Except SimError Scheduler :=
  if schedulerPolicy = "RR" then
    .ok (.roundRobin {})
  else if schedulerPolicy = "Greedy" then
    .ok .greedy
  else if schedulerPolicy = "Priority" then
    .ok (.priority {})
  else if schedulerPolicy = "OldestFirst" then
    .ok .oldestFirst
  else if schedulerPolicy = "GTO" then
    .ok (.gto {})
  else if schedulerPolicy = "TwoLevel" then
    .ok (.twoLevel { activeSetSize := activeSetSize })
  else
    .error (.unknownSchedulerPolicy schedulerPolicy)

end Scheduler

end SimSm
