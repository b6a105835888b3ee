import Mathlib.Data.Finset.Card
import SimSm.Accounting
import SimSm.Grids

namespace SimSm

/-!
# The active set of the two-level policy

The policy keeps a list of warp ids and takes an id for the first warp that has
it.  While the resident warps have distinct ids, the list is a set of at most
`activeSetSize` warps, and only its members are issued.
-/

open TwoLevelScheduler

namespace ActiveSet

/-- The warps that are resident together have distinct ids. -/
def DistinctIds (warps : List Warp) : Prop :=
  (warps.map Warp.warpId).Nodup

/-- Some warp with this id has not completed. -/
def Unfinished (warps : List Warp) (id : Nat) : Prop :=
  ∃ warp ∈ warps, warp.warpId = id ∧ warp.state ≠ .completed

/-! ## One update -/

section Update

variable {policy : TwoLevelScheduler}
variable {warps : List Warp}
variable {id : Nat}

/-- An id that survives the pruning has an unfinished warp. -/
theorem unfinished_of_not_finished
    (notFinished : finished warps id = false) :
    Unfinished warps id := by
  unfold finished at notFinished
  split at notFinished
  · rename_i warp found
    have passes := List.find?_some found
    exact
      ⟨warp, List.mem_of_find?_eq_some found, beq_iff_eq.mp passes,
        beq_eq_false_iff_ne.mp notFinished⟩
  · cases notFinished

/-- With distinct ids, the first warp with an id is the only one. -/
theorem finished_eq_false
    (distinct : DistinctIds warps)
    (unfinished : Unfinished warps id) :
    finished warps id = false := by
  rcases unfinished with ⟨warp, member, rfl, notCompleted⟩
  unfold finished
  split
  · rename_i first found
    have passes := List.find?_some found
    have same : first = warp :=
      List.inj_on_of_nodup_map distinct (List.mem_of_find?_eq_some found)
        member (beq_iff_eq.mp passes)
    rw [same]
    exact beq_eq_false_iff_ne.mpr notCompleted
  · rename_i none
    have noWarp := List.find?_eq_none.mp none warp member
    rw [beq_self_eq_true] at noWarp
    exact (noWarp rfl).elim

/-- An update appends to what survives the pruning. -/
theorem updateActiveSet_ids :
    ∃ admitted : List Warp,
      (policy.updateActiveSet warps).activeWarpIds =
          policy.pruned warps ++ admitted.map Warp.warpId ∧
        admitted.Sublist (candidates warps (policy.pruned warps)) ∧
        ((policy.pruned warps).length ≤ policy.activeSetSize →
          (policy.pruned warps).length + admitted.length ≤
            policy.activeSetSize) := by
  unfold updateActiveSet
  dsimp only
  split
  · refine ⟨_, rfl, List.take_sublist _ _, fun fits => ?_⟩
    have taken :=
      List.length_take_le
        (policy.activeSetSize - (policy.pruned warps).length)
        (candidates warps (policy.pruned warps))
    exact Nat.add_le_of_le_sub' fits taken
  · exact
      ⟨[], (List.append_nil _).symm, List.nil_sublist _, fun fits => fits⟩

/-- An update keeps the bound. -/
theorem updateActiveSet_size :
    (policy.updateActiveSet warps).activeSetSize =
      policy.activeSetSize := by
  unfold updateActiveSet
  dsimp only
  split
  · rfl
  · rfl

/-- The bound holds after an update when it held before. -/
theorem updateActiveSet_length
    (bounded : policy.activeWarpIds.length ≤ policy.activeSetSize) :
    (policy.updateActiveSet warps).activeWarpIds.length ≤
      policy.activeSetSize := by
  rcases @updateActiveSet_ids policy warps with ⟨admitted, ids, _, fits⟩
  rw [ids, List.length_append, List.length_map]
  exact fits ((List.length_filter_le _ _).trans bounded)

/-- The candidates have distinct ids, none of which is active. -/
theorem candidates_ids
    {active : List Nat}
    (distinct : DistinctIds warps) :
    ((candidates warps active).map Warp.warpId).Nodup ∧
      ∀ warp ∈ candidates warps active, warp.warpId ∉ active := by
  have sorted :=
    List.perm_insertionSort
      (fun first second => olderThan second first = false)
      (warps.filter fun warp =>
        !active.contains warp.warpId && warp.state == .ready)
  constructor
  · refine (sorted.map Warp.warpId).nodup_iff.mpr ?_
    exact distinct.sublist (List.filter_sublist.map Warp.warpId)
  · intro warp member
    have passes := List.of_mem_filter (sorted.mem_iff.mp member)
    rw [Bool.and_eq_true, Bool.not_eq_true', List.contains_eq_mem,
      decide_eq_false_iff_not] at passes
    exact passes.1

/-- With distinct ids, an update repeats no id. -/
theorem updateActiveSet_nodup
    (distinct : DistinctIds warps)
    (noRepeats : policy.activeWarpIds.Nodup) :
    (policy.updateActiveSet warps).activeWarpIds.Nodup := by
  rcases @updateActiveSet_ids policy warps with ⟨admitted, ids, part, _⟩
  rcases @candidates_ids warps (policy.pruned warps) distinct with
    ⟨distinctIds, notActive⟩
  rw [ids, List.nodup_append]
  refine
    ⟨noRepeats.filter _, distinctIds.sublist (part.map Warp.warpId), ?_⟩
  rintro active isActive other isOther rfl
  rcases List.mem_map.mp isOther with ⟨warp, member, rfl⟩
  exact notActive warp (part.subset member) isActive

/-- Every active id has an unfinished warp. -/
theorem unfinished_of_active
    (active : id ∈ (policy.updateActiveSet warps).activeWarpIds) :
    Unfinished warps id := by
  rcases @updateActiveSet_ids policy warps with ⟨admitted, ids, part, _⟩
  rw [ids, List.mem_append] at active
  rcases active with survived | new
  · have passes := List.of_mem_filter survived
    rw [Bool.not_eq_true'] at passes
    exact unfinished_of_not_finished passes
  · rcases List.mem_map.mp new with ⟨warp, member, rfl⟩
    rcases hasReady_of_candidate (part.subset member) with
      ⟨ready, isWarp, sameId, isReady⟩
    refine ⟨ready, isWarp, sameId, ?_⟩
    rw [isReady]
    nofun

/-- When no active warp has finished, an update only appends. -/
theorem updateActiveSet_prefix
    (distinct : DistinctIds warps)
    (unfinished : ∀ id ∈ policy.activeWarpIds, Unfinished warps id) :
    policy.activeWarpIds <+:
      (policy.updateActiveSet warps).activeWarpIds := by
  rcases @updateActiveSet_ids policy warps with ⟨admitted, ids, _⟩
  have survives : policy.pruned warps = policy.activeWarpIds := by
    unfold pruned
    rw [List.filter_eq_self]
    intro id active
    rw [finished_eq_false distinct (unfinished id active)]
    rfl
  rw [ids, survives]
  exact List.prefix_append _ _

/-- The warp that is selected is a member of the active set. -/
theorem selected_active
    {position : Nat}
    (selected : (policy.selectWarp warps).1 = some position) :
    ∃ warp,
      warps[position]? = some warp ∧
        warp.warpId ∈ (policy.updateActiveSet warps).activeWarpIds := by
  unfold selectWarp at selected
  dsimp only at selected
  split at selected
  · cases selected
  · rename_i i found
    dsimp only at selected
    rcases findIdx?_passes selected with ⟨warp, isWarp, passes⟩
    rw [Bool.and_eq_true, beq_iff_eq] at passes
    refine ⟨warp, isWarp, ?_⟩
    rw [passes.1, activeIdAt, List.getD_eq_getElem?_getD]
    have inside := List.mem_range.mp (List.mem_of_find?_eq_some found)
    have bound :=
      Nat.mod_lt ((policy.updateActiveSet warps).rrIndex + i)
        (Nat.zero_lt_of_lt inside)
    rw [List.getElem?_eq_getElem bound]
    exact List.getElem_mem bound

/-- Selecting changes the active set by the update only. -/
theorem selectWarp_next :
    (policy.selectWarp warps).2.activeWarpIds =
        (policy.updateActiveSet warps).activeWarpIds ∧
      (policy.selectWarp warps).2.activeSetSize = policy.activeSetSize := by
  unfold selectWarp
  dsimp only
  split
  · exact ⟨rfl, updateActiveSet_size⟩
  · exact ⟨rfl, updateActiveSet_size⟩

end Update

/-! ## Histories -/

/--
A history of a multiprocessor under a new two-level policy: launches, admissions
of some kind of blocks, releases, and ticks from states of some kind that throw
nothing.
-/
inductive History
    (admissible : ThreadBlock → Prop)
    (allowed : SM Scheduler → Prop)
    (size : Nat) :
    SM Scheduler → Prop where
  | fresh
      {sm : SM Scheduler}
      (vacant : sm.Vacant)
      (scheduled :
        sm.scheduler = some (.twoLevel { activeSetSize := size })) :
      History admissible allowed size sm
  | clear
      {sm : SM Scheduler}
      (earlier : History admissible allowed size sm) :
      History admissible allowed size sm.clearWarps
  | allocate
      {sm : SM Scheduler}
      {block : ThreadBlock}
      (earlier : History admissible allowed size sm)
      (isAdmissible : admissible block)
      (req : KernelResourceRequirements) :
      History admissible allowed size (sm.allocateBlock block req)
  | release
      {sm : SM Scheduler}
      (earlier : History admissible allowed size sm) :
      History admissible allowed size sm.releaseCompletedBlocks
  | tick
      {sm after : SM Scheduler}
      {kernel : Kernel}
      {memory memory' : MemorySystem}
      (earlier : History admissible allowed size sm)
      (isAllowed : allowed sm)
      (ran : sm.tick kernel memory = .ok (after, memory')) :
      History admissible allowed size after

/-- The active ids at the next selection, once they are updated. -/
def active (sm : SM Scheduler) : List Nat :=
  match sm.scheduler with
  | some (.twoLevel policy) =>
      (policy.updateActiveSet sm.tickStalls.warps).activeWarpIds
  | _ => []

/-- The active set of a multiprocessor repeats no warp. -/
def NoRepeats (sm : SM Scheduler) : Prop :=
  ∀ policy,
    sm.scheduler = some (.twoLevel policy) →
    policy.activeWarpIds.Nodup

/-- No warp that has one of some ids completes in a tick. -/
def NoneCompletes
    (among : Nat → Prop)
    (before after : SM Scheduler) : Prop :=
  ∀ (position : Nat) (former warp : Warp),
    before.warps[position]? = some former →
    after.warps[position]? = some warp →
    among warp.warpId →
    warp.state = .completed →
    former.state = .completed

/-- Some ticks in a row issue at most so many different warps. -/
def IssuesAtMost
    (size : Nat)
    (states : Nat → SM Scheduler)
    (rounds : Nat) : Prop :=
  ∀ positions : Finset Nat,
    (∀ position ∈ positions,
      ∃ round < rounds, ∃ warp,
        (states round).issued? = some (position, warp)) →
    positions.card ≤ size

/-- Some ticks in a row issue warps with one of some ids only. -/
def IssuesOnly
    (ids : List Nat)
    (states : Nat → SM Scheduler)
    (rounds : Nat) : Prop :=
  ∀ round < rounds,
    ∀ (position : Nat) (warp : Warp),
      (states round).issued? = some (position, warp) →
      warp.warpId ∈ ids

/--
The active set repeats no warp; while no warp completes, at most `size`
different warps are issued; and while no member of a full active set completes,
no other warp is issued.
-/
structure Rotation
    (size : Nat)
    (states : Nat → SM Scheduler)
    (rounds : Nat) : Prop where
  noRepeats : NoRepeats (states 0)
  atMost :
    (∀ round,
      round + 1 < rounds →
      NoneCompletes (fun _ => True) (states round) (states (round + 1))) →
    IssuesAtMost size states rounds
  members :
    (active (states 0)).length = size →
    (∀ round,
      round + 1 < rounds →
      NoneCompletes (fun id => id ∈ active (states 0)) (states round)
        (states (round + 1))) →
    IssuesOnly (active (states 0)) states rounds

/-- What a history of distinct ids keeps. -/
structure Kept
    (size : Nat)
    (sm : SM Scheduler)
    (policy : TwoLevelScheduler) : Prop where
  scheduled : sm.scheduler = some (.twoLevel policy)
  isSize : policy.activeSetSize = size
  noRepeats : policy.activeWarpIds.Nodup
  bounded : policy.activeWarpIds.length ≤ size

section Steps

variable {admissible : ThreadBlock → Prop}
variable {size : Nat}
variable {sm after : SM Scheduler}
variable {policy : TwoLevelScheduler}
variable {kernel : Kernel}
variable {memory memory' : MemorySystem}

/-- The active ids are those of the policy, updated. -/
theorem Kept.active_eq
    (kept : Kept size sm policy) :
    active sm =
      (policy.updateActiveSet sm.tickStalls.warps).activeWarpIds := by
  unfold active
  rw [kept.scheduled]

/-- The ids stay distinct while stalls are counted down. -/
theorem distinctIds_tickStalls
    (distinct : DistinctIds sm.warps) :
    DistinctIds sm.tickStalls.warps := by
  rw [DistinctIds, Accounting.tickStalls_ids]
  exact distinct

/-- There are never more active ids than the policy allows. -/
theorem Kept.active_length
    (kept : Kept size sm policy) :
    (active sm).length ≤ size := by
  rw [kept.active_eq, ← kept.isSize]
  apply updateActiveSet_length
  rw [kept.isSize]
  exact kept.bounded

/-- A tick keeps the set without repeats, and stores the updated ids. -/
theorem Kept.tick
    (kept : Kept size sm policy)
    (distinct : DistinctIds sm.warps)
    (uncompleted : sm.isCompleted = false)
    (ran : sm.tick kernel memory = .ok (after, memory')) :
    ∃ next, Kept size after next ∧ next.activeWarpIds = active sm := by
  rcases SM.tick_ok ran with ⟨_, scheduler, _⟩
  rcases @selectWarp_next policy sm.tickStalls.warps with ⟨ids, isSize⟩
  rw [← kept.active_eq] at ids
  refine
    ⟨(policy.selectWarp sm.tickStalls.warps).2, ⟨?_, ?_, ?_, ?_⟩, ids⟩
  · rw [scheduler, SM.rescheduled, uncompleted, if_neg Bool.false_ne_true,
      kept.scheduled]
    rfl
  · rw [isSize, kept.isSize]
  · rw [ids, kept.active_eq]
    exact
      updateActiveSet_nodup (distinctIds_tickStalls distinct) kept.noRepeats
  · rw [ids]
    exact kept.active_length

/-- The run lemma: with distinct ids, no history repeats an active id. -/
theorem History.kept
    (history :
      History admissible (fun state => DistinctIds state.warps) size sm) :
    ∃ policy, Kept size sm policy := by
  induction history with
  | fresh _ scheduled =>
      exact ⟨_, scheduled, rfl, List.nodup_nil, Nat.zero_le _⟩
  | clear _ inductionHypothesis =>
      rcases inductionHypothesis with ⟨policy, kept⟩
      exact
        ⟨policy, kept.scheduled, kept.isSize, kept.noRepeats, kept.bounded⟩
  | allocate _ _ req inductionHypothesis =>
      rename_i before block _ _
      rcases inductionHypothesis with ⟨policy, kept⟩
      refine
        ⟨policy, ?_, kept.isSize, kept.noRepeats, kept.bounded⟩
      rw [(before.allocateBlock_admits block req).scheduler]
      exact kept.scheduled
  | release _ inductionHypothesis =>
      rcases inductionHypothesis with ⟨policy, kept⟩
      refine
        ⟨policy, ?_, kept.isSize, kept.noRepeats, kept.bounded⟩
      rw [SM.releaseCompletedBlocks_eq]
      exact kept.scheduled
  | tick _ distinct ran inductionHypothesis =>
      rename_i before _ _ _ _ _
      rcases inductionHypothesis with ⟨policy, kept⟩
      cases done : before.isCompleted with
      | true =>
          rw [SM.tick_completed done ran]
          exact ⟨policy, kept⟩
      | false =>
          rcases kept.tick distinct done ran with ⟨next, keptNext, _⟩
          exact ⟨next, keptNext⟩

/-- The issued warp is a member of the active set. -/
theorem Kept.issued_active
    {position : Nat}
    {warp : Warp}
    (kept : Kept size sm policy)
    (issued : sm.issued? = some (position, warp)) :
    warp.warpId ∈ active sm := by
  have isId := Accounting.issued?_id issued
  unfold SM.issued? at issued
  split at issued
  · cases issued
  · rcases Option.bind_eq_some_iff.mp issued with ⟨index, selected, isIssued⟩
    rcases Option.map_eq_some_iff.mp isIssued with ⟨_, _, same⟩
    cases same
    rw [SM.selected?, kept.scheduled] at selected
    rcases selected_active selected with ⟨stalled, found, isActive⟩
    have stalledId :
        (sm.tickStalls.warps.map Warp.warpId)[position]? =
          some stalled.warpId := by
      rw [List.getElem?_map, found]
      rfl
    rw [Accounting.tickStalls_ids, isId, Option.some.injEq] at stalledId
    rw [stalledId, kept.active_eq]
    exact isActive

/-- The step lemma: while no active warp completes, ids are only appended. -/
theorem Kept.active_prefix
    (kept : Kept size sm policy)
    (distinct : DistinctIds sm.warps)
    (running : NoneCompletes (fun id => id ∈ active sm) sm after)
    (ran : sm.tick kernel memory = .ok (after, memory')) :
    active sm <+: active after := by
  cases done : sm.isCompleted with
  | true =>
      rw [SM.tick_completed done ran]
  | false =>
      rcases kept.tick distinct done ran with ⟨next, keptNext, ids⟩
      have sameIds := Accounting.tick_ids ran
      rw [keptNext.active_eq, ← ids]
      apply updateActiveSet_prefix
      · apply distinctIds_tickStalls
        rw [DistinctIds, sameIds]
        exact distinct
      · intro id isActive
        rw [ids] at isActive
        have wasActive := isActive
        rw [kept.active_eq] at wasActive
        rcases unfinished_of_active wasActive with
          ⟨stalled, member, isId, notCompleted⟩
        rcases List.mem_iff_getElem?.mp member with ⟨position, isStalled⟩
        rcases Pointwise.origin sm.tickStalls_waited isStalled with
          ⟨former, foundFormer, waited⟩
        have foundId :
            (after.warps.map Warp.warpId)[position]? = some id := by
          rw [sameIds, List.getElem?_map, foundFormer, Option.map_some,
            ← waited.core.warpId, isId]
        rw [List.getElem?_map, Option.map_eq_some_iff] at foundId
        rcases foundId with ⟨warp, found, sameId⟩
        rcases Pointwise.partner after.tickStalls_waited found with
          ⟨later, foundLater, waitedLater⟩
        refine ⟨later, List.mem_of_getElem? foundLater, ?_, ?_⟩
        · rw [waitedLater.core.warpId, sameId]
        · intro completed
          apply notCompleted
          rw [waited.completed_iff]
          exact
            running position former warp foundFormer found
              (by rwa [sameId]) (waitedLater.completed_iff.mp completed)

end Steps

/-! ## Intervals of ticks -/

section Intervals

variable {admissible : ThreadBlock → Prop}
variable {size rounds : Nat}
variable {states : Nat → SM Scheduler}
variable {kernel : Kernel}

/-- Ticks keep the ids of the warps, and the policy keeps its invariant. -/
theorem interval_kept
    (history :
      History admissible (fun state => DistinctIds state.warps) size
        (states 0))
    (distinct : DistinctIds (states 0).warps)
    (ticks :
      ∀ round < rounds,
        Latency.Ticks kernel (states round) (states (round + 1)))
    {round : Nat}
    (early : round ≤ rounds) :
    (∃ policy, Kept size (states round) policy) ∧
      (states round).warps.map Warp.warpId =
        (states 0).warps.map Warp.warpId := by
  have reached :
      History admissible (fun state => DistinctIds state.warps) size
          (states round) ∧
        (states round).warps.map Warp.warpId =
          (states 0).warps.map Warp.warpId := by
    induction round with
    | zero => exact ⟨history, rfl⟩
    | succ round inductionHypothesis =>
        rcases inductionHypothesis (Nat.le_of_succ_le early) with
          ⟨earlier, sameIds⟩
        rcases ticks round early with ⟨memory, memory', ran⟩
        refine ⟨earlier.tick ?_ ran, (Accounting.tick_ids ran).trans sameIds⟩
        rw [DistinctIds, sameIds]
        exact distinct
  exact ⟨reached.1.kept, reached.2⟩

/-- While nothing completes, the active set only grows. -/
theorem interval_grows
    (history :
      History admissible (fun state => DistinctIds state.warps) size
        (states 0))
    (distinct : DistinctIds (states 0).warps)
    (ticks :
      ∀ round < rounds,
        Latency.Ticks kernel (states round) (states (round + 1)))
    (running :
      ∀ round,
        round + 1 < rounds →
        NoneCompletes (fun _ => True) (states round) (states (round + 1)))
    {first last : Nat}
    (ordered : first ≤ last)
    (within : last < rounds) :
    active (states first) <+: active (states last) := by
  induction last, ordered using Nat.le_induction with
  | base => exact List.prefix_refl _
  | succ last ordered inductionHypothesis =>
      have before : last < rounds := Nat.lt_of_succ_lt within
      rcases interval_kept history distinct ticks before.le with
        ⟨⟨policy, kept⟩, sameIds⟩
      rcases ticks last before with ⟨memory, memory', ran⟩
      have stillDistinct : DistinctIds (states last).warps := by
        rw [DistinctIds, sameIds]
        exact distinct
      refine (inductionHypothesis before).trans ?_
      refine kept.active_prefix stillDistinct ?_ ran
      intro position former warp found foundAfter _
      exact running last within position former warp found foundAfter trivial

/-- While no member of a full active set completes, the set stays as it is. -/
theorem interval_full
    (history :
      History admissible (fun state => DistinctIds state.warps) size
        (states 0))
    (distinct : DistinctIds (states 0).warps)
    (ticks :
      ∀ round < rounds,
        Latency.Ticks kernel (states round) (states (round + 1)))
    (full : (active (states 0)).length = size)
    (running :
      ∀ round,
        round + 1 < rounds →
        NoneCompletes (fun id => id ∈ active (states 0)) (states round)
          (states (round + 1)))
    {round : Nat}
    (within : round < rounds) :
    active (states round) = active (states 0) := by
  induction round with
  | zero => rfl
  | succ round inductionHypothesis =>
      have before : round < rounds := Nat.lt_of_succ_lt within
      have same := inductionHypothesis before
      rcases interval_kept history distinct ticks before.le with
        ⟨⟨policy, kept⟩, sameIds⟩
      rcases interval_kept history distinct ticks within.le with
        ⟨⟨next, keptNext⟩, _⟩
      rcases ticks round before with ⟨memory, memory', ran⟩
      have stillDistinct : DistinctIds (states round).warps := by
        rw [DistinctIds, sameIds]
        exact distinct
      have members := running round within
      rw [← same] at members full ⊢
      have grows := kept.active_prefix stillDistinct members ran
      refine (grows.eq_of_length_le ?_).symm
      rw [full]
      exact keptNext.active_length

/-- While nothing completes, every issued warp is active at the end. -/
theorem interval_issued
    (history :
      History admissible (fun state => DistinctIds state.warps) size
        (states 0))
    (distinct : DistinctIds (states 0).warps)
    (ticks :
      ∀ round < rounds,
        Latency.Ticks kernel (states round) (states (round + 1)))
    (running :
      ∀ round,
        round + 1 < rounds →
        NoneCompletes (fun _ => True) (states round) (states (round + 1)))
    {round last position : Nat}
    {warp : Warp}
    (ordered : round ≤ last)
    (within : last < rounds)
    (issued : (states round).issued? = some (position, warp)) :
    ((states 0).warps.map Warp.warpId)[position]? = some warp.warpId ∧
      warp.warpId ∈ active (states last) := by
  rcases interval_kept history distinct ticks (ordered.trans within.le) with
    ⟨⟨policy, kept⟩, sameIds⟩
  constructor
  · rw [← sameIds]
    exact Accounting.issued?_id issued
  · have grows :=
      interval_grows history distinct ticks running ordered within
    exact grows.subset (kept.issued_active issued)

/-- While nothing completes, few warps are issued. -/
theorem interval_issuesAtMost
    (history :
      History admissible (fun state => DistinctIds state.warps) size
        (states 0))
    (distinct : DistinctIds (states 0).warps)
    (ticks :
      ∀ round < rounds,
        Latency.Ticks kernel (states round) (states (round + 1)))
    (running :
      ∀ round,
        round + 1 < rounds →
        NoneCompletes (fun _ => True) (states round) (states (round + 1))) :
    IssuesAtMost size states rounds := by
  intro positions issued
  rcases Nat.eq_zero_or_pos rounds with rfl | positive
  · have empty : positions = ∅ := by
      rw [Finset.eq_empty_iff_forall_notMem]
      intro position member
      rcases issued position member with ⟨round, impossible, _⟩
      exact Nat.not_lt_zero round impossible
    rw [empty, Finset.card_empty]
    exact Nat.zero_le size
  · have isLast : rounds - 1 < rounds := Nat.sub_one_lt_of_lt positive
    have isIssued (position : Nat) (member : position ∈ positions) :
        ∃ id,
          ((states 0).warps.map Warp.warpId)[position]? = some id ∧
            id ∈ active (states (rounds - 1)) := by
      rcases issued position member with ⟨round, within, warp, selected⟩
      exact
        ⟨warp.warpId,
          interval_issued history distinct ticks running
            (Nat.le_sub_one_of_lt within) isLast selected⟩
    -- positions are told apart by the ids at them
    have card :
        positions.card ≤ (active (states (rounds - 1))).toFinset.card := by
      refine
        Finset.card_le_card_of_injOn
          (((states 0).warps.map Warp.warpId).getD · 0) ?_ ?_
      · intro position member
        rcases isIssued position member with ⟨id, found, isActive⟩
        dsimp only
        rw [List.getD_eq_getElem?_getD, found]
        exact List.mem_toFinset.mpr isActive
      · intro first isFirst second isSecond same
        rcases isIssued first isFirst with ⟨firstId, foundFirst, _⟩
        rcases isIssued second isSecond with ⟨secondId, foundSecond, _⟩
        dsimp only at same
        rw [List.getD_eq_getElem?_getD, List.getD_eq_getElem?_getD,
          foundFirst, foundSecond] at same
        have sameId : firstId = secondId := same
        subst sameId
        exact
          (List.getElem?_inj
            (List.getElem?_eq_some_iff.mp foundFirst).1 distinct).mp
            (foundFirst.trans foundSecond.symm)
    rcases interval_kept history distinct ticks isLast.le with
      ⟨⟨policy, kept⟩, _⟩
    exact card.trans ((List.toFinset_card_le _).trans kept.active_length)

/--
In every history in which the resident warps have distinct ids at each
selection, the policy keeps its rotation over every interval of ticks.
-/
theorem rotation_of_distinctIds
    (history :
      History admissible (fun state => DistinctIds state.warps) size
        (states 0))
    (distinct : DistinctIds (states 0).warps)
    (ticks :
      ∀ round < rounds,
        Latency.Ticks kernel (states round) (states (round + 1))) :
    Rotation size states rounds where
  noRepeats := by
    rcases history.kept with ⟨policy, kept⟩
    intro other scheduled
    rw [kept.scheduled, Option.some.injEq, Scheduler.twoLevel.injEq]
      at scheduled
    subst scheduled
    exact kept.noRepeats
  atMost := interval_issuesAtMost history distinct ticks
  members := by
    intro full running round within position warp issued
    rcases interval_kept history distinct ticks within.le with
      ⟨⟨policy, kept⟩, _⟩
    rw [← interval_full history distinct ticks full running within]
    exact kept.issued_active issued

end Intervals

/-- No warp completes in a tick after which all still run. -/
theorem noneCompletes_of_running
    {among : Nat → Prop}
    {before after : SM Scheduler}
    (running :
      after.warps.all (fun warp => warp.state != .completed) = true) :
    NoneCompletes among before after := by
  intro position former warp _ found _ completed
  rw [List.all_eq_true] at running
  have goesOn := running warp (List.mem_of_getElem? found)
  rw [completed] at goesOn
  cases goesOn

/-! ## Loads under the policy -/

/-- A multiprocessor under a two-level policy that keeps some warps active. -/
def vacantStart (size : Nat) : SM Scheduler :=
  SM.vacantWith (.twoLevel { activeSetSize := size })

/-- It has a history. -/
theorem vacantStart_history
    {admissible : ThreadBlock → Prop}
    {allowed : SM Scheduler → Prop}
    {size : Nat} :
    History admissible allowed size (vacantStart size) :=
  .fresh (SM.vacantWith_vacant _) rfl

/-- The states of a run of loads. -/
def loads (start : SM Scheduler) (round : Nat) : SM Scheduler :=
  (SM.stepped Latency.loadKernel (Latency.loadMemory 3))^[round] start

/-- Each state leads to the next while its tick does not throw. -/
theorem loads_ticks
    {start : SM Scheduler}
    {round : Nat}
    (isOk :
      ((loads start round).tick Latency.loadKernel
        (Latency.loadMemory 3)).isOk = true) :
    Latency.Ticks Latency.loadKernel (loads start round)
      (loads start (round + 1)) := by
  rcases SM.tick_stepped isOk with ⟨memory', ran⟩
  refine ⟨Latency.loadMemory 3, memory', ?_⟩
  rw [ran]
  simp only [loads, Function.iterate_succ_apply']

/-- A resident block of three warps, two of which are active. -/
def trioStart : SM Scheduler :=
  (vacantStart 2).allocateBlock Benchmarks.trioBlock ⟨0, 0⟩

/--
Six ticks issue the two active warps in turn; the third one stays ready and
waits.
-/
theorem rotation_of_distinctIds_trio :
    Rotation 2 (loads trioStart) 6 ∧
      active (loads trioStart 0) = [0, 1] ∧
      IssuesOnly [0, 1] (loads trioStart) 6 := by
  have rotation : Rotation 2 (loads trioStart) 6 := by
    apply
      @rotation_of_distinctIds
        (fun block => block ∈ Benchmarks.trioGrid.blocks) 2 6
        (loads trioStart) Latency.loadKernel
    · exact vacantStart_history.allocate Benchmarks.trioBlock_mem ⟨0, 0⟩
    · unfold DistinctIds
      decide +kernel
    · intro round early
      refine loads_ticks ?_
      revert round
      decide +kernel
  have isActive : active (loads trioStart 0) = [0, 1] := by
    decide +kernel
  refine ⟨rotation, isActive, ?_⟩
  rw [← isActive]
  refine rotation.members (by rw [isActive]; rfl) fun round early => ?_
  have running :
      ∀ round < 6,
        (loads trioStart round).warps.all
            (fun warp => warp.state != .completed) =
          true := by
    decide +kernel
  exact noneCompletes_of_running (running (round + 1) early)

/-- A resident block of one warp, which is active. -/
def loneStart : SM Scheduler :=
  (vacantStart 1).allocateBlock (Benchmarks.pairBlock 0) ⟨0, 0⟩

/-- Two resident blocks. -/
def bothStart : SM Scheduler :=
  loneStart.allocateBlock (Benchmarks.pairBlock 1) ⟨0, 0⟩

/--
With two blocks of the benchmark grid, the one active id stands for the first
warp of each, and both are issued.
-/
theorem twoLevel_exceeds_active_set :
    ¬ ∀ (numThreads blockSize warpSize : Nat) (strided : Bool)
        (grid : Grid) (size rounds : Nat) (states : Nat → SM Scheduler)
        (kernel : Kernel),
        1 ≤ blockSize →
        1 ≤ warpSize →
        warpSize ≤ 32 →
        Benchmarks.buildBenchmarkGrid numThreads blockSize warpSize strided =
          .ok grid →
        1 ≤ size →
        History (fun block => block ∈ grid.blocks) (fun _ => True) size
          (states 0) →
        (∀ round < rounds,
          Latency.Ticks kernel (states round) (states (round + 1))) →
        Rotation size states rounds := by
  intro always
  have rotation :=
    always 2 1 1 false Benchmarks.pairGrid 1 2 (loads bothStart)
      Latency.loadKernel (Nat.le_refl 1) (Nat.le_refl 1) (by decide)
      Benchmarks.buildBenchmarkGrid_pair (Nat.le_refl 1)
      ((vacantStart_history.allocate (Benchmarks.pairBlock_mem Nat.two_pos)
        ⟨0, 0⟩).allocate (Benchmarks.pairBlock_mem Nat.one_lt_two) ⟨0, 0⟩)
      (by
        intro round early
        rcases round with _ | _ | round
        · exact loads_ticks (by decide +kernel)
        · exact loads_ticks (by decide +kernel)
        · exact absurd early (by simp))
  have few := rotation.atMost (by
    intro round early
    have first : round = 0 := by omega
    subst first
    exact noneCompletes_of_running (by decide +kernel))
  have firstIssue :
      (loads bothStart 0).issued?.map Prod.fst = some 0 := by
    decide +kernel
  have secondIssue :
      (loads bothStart 1).issued?.map Prod.fst = some 1 := by
    decide +kernel
  have tooMany := few {0, 1} (by
    intro position member
    rcases Finset.mem_insert.mp member with rfl | isOne
    · rcases Option.map_eq_some_iff.mp firstIssue with
        ⟨⟨_, warp⟩, issued, rfl⟩
      exact ⟨0, by decide, warp, issued⟩
    · rw [Finset.mem_singleton] at isOne
      subst isOne
      rcases Option.map_eq_some_iff.mp secondIssue with
        ⟨⟨_, warp⟩, issued, rfl⟩
      exact ⟨1, by decide, warp, issued⟩)
  exact absurd tooMany (by decide)

end ActiveSet

end SimSm
