import SimSm.Accounting
import SimSm.Grids

namespace SimSm

/-!
# Greedy then oldest

The policy remembers the id of the warp that it issued last, and prefers the
first ready warp with this id.  Ids are unique within a block only, so with two
resident blocks that warp may be another one.
-/

namespace GreedyThenOldest

/-- A position holds a ready warp that no ready warp precedes in age. -/
def IsOldest (warps : List Warp) (position : Nat) : Prop :=
  ∃ warp,
    warps[position]? = some warp ∧ warp.state = .ready ∧
      ∀ other ∈ warps,
        other.state = .ready →
        warp.readySinceCycle < other.readySinceCycle ∨
          warp.readySinceCycle = other.readySinceCycle ∧
            warp.warpId ≤ other.warpId

/-! ## The policy -/

/-- The first ready warp with the remembered id. -/
def remembered (policy : GTOScheduler) (warps : List Warp) : Option Nat :=
  if policy.lastIssuedWarpId ≠ 2 ^ 64 - 1 then
    TwoLevelScheduler.readyWithId? warps policy.lastIssuedWarpId
  else
    none

section Policy

variable {policy : GTOScheduler}
variable {warps : List Warp}
variable {position : Nat}

/-- While a ready warp has the remembered id, some warp is remembered. -/
theorem remembered_isSome
    {warp : Warp}
    (member : warp ∈ warps)
    (ready : warp.state = .ready)
    (isId : warp.warpId = policy.lastIssuedWarpId)
    (usable : warp.warpId < 2 ^ 64 - 1) :
    (remembered policy warps).isSome = true := by
  rw [remembered, if_pos (by rw [← isId]; exact usable.ne),
    TwoLevelScheduler.readyWithId?_isSome]
  exact ⟨warp, member, isId, ready⟩

/-- The policy selects the remembered warp, or else the oldest one. -/
theorem selectWarp_selected :
    (policy.selectWarp warps).1 =
      (remembered policy warps).or (oldestReady warps) := by
  unfold GTOScheduler.selectWarp
  dsimp only
  split
  · rfl
  · rename_i nothing
    change
      ((remembered policy warps).or (oldestReady warps)).bind (warps[·]?) =
        none at nothing
    cases chosen : (remembered policy warps).or (oldestReady warps) with
    | none => rfl
    | some position =>
        have ready : ReadyAt warps position :=
          GTOScheduler.chosen_ready chosen
        rcases ready with ⟨warp, found, _⟩
        rw [chosen, Option.bind_some, found] at nothing
        cases nothing

/-- The policy remembers the id of the warp that it selects. -/
theorem selectWarp_remembers
    {warp : Warp}
    (selected : (policy.selectWarp warps).1 = some position)
    (found : warps[position]? = some warp) :
    (policy.selectWarp warps).2.lastIssuedWarpId = warp.warpId := by
  rw [selectWarp_selected] at selected
  have isSelected :
      ((remembered policy warps).or (oldestReady warps)).bind (warps[·]?) =
        some warp := by
    rw [selected, Option.bind_some, found]
  unfold GTOScheduler.selectWarp
  dsimp only
  split
  · rename_i other isOther
    cases isSelected.symm.trans isOther
    rfl
  · rename_i nothing
    cases isSelected.symm.trans nothing

/-- The oldest ready warp is selected when no warp is remembered. -/
theorem isOldest_of_oldestReady
    (selected : oldestReady warps = some position) :
    IsOldest warps position := by
  rcases oldestReady_oldestAt selected with ⟨warp, oldest⟩
  refine ⟨warp, oldest.found, oldest.ready, fun other member ready => ?_⟩
  exact olderThan_eq_false_iff.mp (oldest.notOlder member ready)

/-- Nothing is selected only when no warp is ready. -/
theorem none_ready
    (selected : (policy.selectWarp warps).1 = none) :
    ¬ ReadyAt warps position := by
  intro ready
  have isSome := policy.selectWarp_isSome ready
  rw [selected] at isSome
  cases isSome

end Policy

/-! ## Histories -/

/--
A multiprocessor, the tags of its warps (numbers in order of allocation), the
next tag, and the tag of the warp that was issued at the last selection.
-/
structure Watch where
  sm : SM Scheduler
  tags : List Nat := []
  next : Nat := 0
  last : Option Nat := none

/--
One operation on a multiprocessor: a launch, the admission of some kind of
block, a release or a tick that throws nothing.
-/
inductive Step (admissible : ThreadBlock → Prop) : Watch → Watch → Prop where
  | clear
      {watch : Watch} :
      Step admissible watch
        { watch with sm := watch.sm.clearWarps, tags := [] }
  | allocate
      {watch : Watch}
      {block : ThreadBlock}
      (isAdmissible : admissible block)
      (req : KernelResourceRequirements) :
      Step admissible watch
        { watch with
          sm := watch.sm.allocateBlock block req
          tags := watch.tags ++ List.range' watch.next block.warps.length
          next := watch.next + block.warps.length }
  | release
      {watch : Watch} :
      Step admissible watch
        { watch with
          sm := watch.sm.releaseCompletedBlocks
          tags := watch.sm.retain watch.tags }
  | tick
      {watch : Watch}
      {after : SM Scheduler}
      {kernel : Kernel}
      {memory memory' : MemorySystem}
      (ran : watch.sm.tick kernel memory = .ok (after, memory')) :
      Step admissible watch
        { watch with
          sm := after
          last :=
            if watch.sm.isCompleted then
              watch.last
            else
              watch.sm.selected?.bind (watch.tags[·]?) }

/-- A history of a multiprocessor under the policy. -/
inductive History (admissible : ThreadBlock → Prop) : Watch → Prop where
  | fresh
      {sm : SM Scheduler}
      {policy : GTOScheduler}
      (vacant : sm.Vacant)
      (scheduled : sm.scheduler = some (.gto policy)) :
      History admissible { sm := sm }
  | step
      {watch after : Watch}
      (earlier : History admissible watch)
      (operation : Step admissible watch after) :
      History admissible after

/-- The states of a run have histories. -/
theorem History.run
    {admissible : ThreadBlock → Prop}
    {states : Nat → Watch}
    {rounds : Nat}
    (history : History admissible (states 0))
    (steps :
      ∀ round < rounds,
        Step admissible (states round) (states (round + 1))) :
    ∀ round ≤ rounds, History admissible (states round) := by
  intro round within
  induction round with
  | zero => exact history
  | succ round inductionHypothesis =>
      exact
        (inductionHypothesis (Nat.le_of_succ_le within)).step
          (steps round within)

/-- The warp issued at the last selection is at a position, and ready. -/
def LastReadyAt (watch : Watch) (position : Nat) : Prop :=
  ∃ tag,
    watch.last = some tag ∧ watch.tags[position]? = some tag ∧
      ReadyAt watch.sm.tickStalls.warps position

/-- That warp is ready. -/
theorem LastReadyAt.ready
    {watch : Watch}
    {position : Nat}
    (last : LastReadyAt watch position) :
    ReadyAt watch.sm.tickStalls.warps position := by
  rcases last with ⟨_, _, _, ready⟩
  exact ready

/--
The next selection is greedy: it takes the warp issued last while that is ready,
and otherwise an oldest ready warp, if there is one.
-/
structure Greedy (watch : Watch) : Prop where
  same :
    ∀ position,
      LastReadyAt watch position →
      watch.sm.selected? = some position
  oldest :
    (¬ ∃ position, LastReadyAt watch position) →
    ∀ position,
      watch.sm.selected? = some position →
      IsOldest watch.sm.tickStalls.warps position
  nothing :
    watch.sm.selected? = none →
    ∀ position, ¬ ReadyAt watch.sm.tickStalls.warps position

/--
No other warp goes by the remembered id: whenever a ready warp has it, the warp
that was issued last is ready too, at that position or before.
-/
def OwnId (watch : Watch) : Prop :=
  ∀ policy position warp,
    watch.sm.scheduler = some (.gto policy) →
    watch.sm.tickStalls.warps[position]? = some warp →
    warp.state = .ready →
    warp.warpId = policy.lastIssuedWarpId →
    ∃ earlier ≤ position, LastReadyAt watch earlier

/-- The ids are usable, and the last warp's is the one remembered. -/
def Named
    (watch : Watch)
    (policy : GTOScheduler)
    (id tag : Nat) : Prop :=
  id < 2 ^ 64 - 1 ∧ tag < watch.next ∧
    (watch.last = some tag → id = policy.lastIssuedWarpId)

/-- What a history keeps: the policy remembers the id of the last warp. -/
structure Kept (watch : Watch) (policy : GTOScheduler) : Prop where
  scheduled : watch.sm.scheduler = some (.gto policy)
  distinct : watch.tags.Nodup
  related :
    List.Forall₂ (fun warp tag => Named watch policy warp.warpId tag)
      watch.sm.warps watch.tags
  below : ∀ tag, watch.last = some tag → tag < watch.next

section Kept

variable {watch : Watch}
variable {policy : GTOScheduler}
variable {admissible : ThreadBlock → Prop}

/-- What a tick selects is what the policy selects. -/
theorem selected?_eq
    {sm : SM Scheduler}
    (scheduled : sm.scheduler = some (.gto policy)) :
    sm.selected? = (policy.selectWarp sm.tickStalls.warps).1 := by
  rw [SM.selected?, scheduled]
  rfl

/-- A launch forgets the tags. -/
theorem Kept.clear
    (kept : Kept watch policy) :
    Kept { watch with sm := watch.sm.clearWarps, tags := [] } policy where
  scheduled := kept.scheduled
  distinct := List.nodup_nil
  related := .nil
  below := kept.below

/-- An admission numbers the new warps from the next tag on. -/
theorem Kept.allocate
    {block : ThreadBlock}
    (ids : ∀ warp ∈ block.warps, warp.warpId < 2 ^ 64 - 1)
    (kept : Kept watch policy)
    (req : KernelResourceRequirements) :
    Kept
      { watch with
        sm := watch.sm.allocateBlock block req
        tags := watch.tags ++ List.range' watch.next block.warps.length
        next := watch.next + block.warps.length }
      policy := by
  have admits := watch.sm.allocateBlock_admits block req
  have old :
      ∀ tag ∈ watch.tags, tag < watch.next := by
    intro tag member
    rcases List.mem_iff_getElem?.mp member with ⟨position, found⟩
    rcases Pointwise.origin kept.related found with ⟨_, _, related⟩
    exact related.2.1
  refine ⟨?_, ?_, ?_, ?_⟩
  · rw [admits.scheduler]
    exact kept.scheduled
  · rw [List.nodup_append]
    refine ⟨kept.distinct, List.nodup_range', ?_⟩
    intro tag isOld other isNew same
    rw [List.mem_range'_1, ← same] at isNew
    exact Nat.not_le.mpr (old tag isOld) isNew.1
  · rw [admits.warps]
    refine List.rel_append ?_ ?_
    · apply kept.related.imp
      rintro warp tag ⟨usable, below, isLast⟩
      exact ⟨usable, Nat.lt_add_right _ below, isLast⟩
    · refine Pointwise.of_positions (by rw [List.length_range']) ?_
      intro position warp tag found isTag
      have isNew := List.mem_of_getElem? isTag
      rw [List.mem_range'_1] at isNew
      refine ⟨ids warp (List.mem_of_getElem? found), isNew.2, ?_⟩
      intro isLast
      exact (Nat.not_lt.mpr isNew.1 (kept.below tag isLast)).elim
  · intro tag isLast
    exact Nat.lt_add_right _ (kept.below tag isLast)

/-- A release keeps the tags of the remaining warps. -/
theorem Kept.release
    (kept : Kept watch policy) :
    Kept
      { watch with
        sm := watch.sm.releaseCompletedBlocks
        tags := watch.sm.retain watch.tags }
      policy where
  scheduled := by
    rw [SM.releaseCompletedBlocks_eq]
    exact kept.scheduled
  distinct :=
    kept.distinct.sublist (SM.retain_sublist kept.related.length_eq.symm)
  related := SM.retain_related kept.related
  below := kept.below

/-- A tick remembers the id of the warp that it selects. -/
theorem Kept.tick
    {after : SM Scheduler}
    {kernel : Kernel}
    {memory memory' : MemorySystem}
    (kept : Kept watch policy)
    (ran : watch.sm.tick kernel memory = .ok (after, memory')) :
    ∃ next,
      Kept
        { watch with
          sm := after
          last :=
            if watch.sm.isCompleted then
              watch.last
            else
              watch.sm.selected?.bind (watch.tags[·]?) }
        next := by
  rcases SM.tick_ok ran with ⟨_, scheduler, _⟩
  have related :=
    Accounting.labels_congr (Named watch policy) (Accounting.tick_ids ran)
      kept.related
  cases done : watch.sm.isCompleted with
  | true =>
      refine ⟨policy, ?_, kept.distinct, related, kept.below⟩
      rw [scheduler, SM.rescheduled, if_pos done]
      exact kept.scheduled
  | false =>
      refine
        ⟨(policy.selectWarp watch.sm.tickStalls.warps).2, ?_,
          kept.distinct, ?_, ?_⟩
      · rw [scheduler, SM.rescheduled, done, if_neg Bool.false_ne_true,
          kept.scheduled]
        rfl
      · refine Pointwise.of_positions related.length_eq ?_
        intro position warp tag found isTag
        rcases Pointwise.related_at related found isTag with
          ⟨usable, below, _⟩
        refine ⟨usable, below, fun isLast => ?_⟩
        rw [if_neg Bool.false_ne_true] at isLast
        rcases Option.bind_eq_some_iff.mp isLast with
          ⟨selected, isSelected, sameTag⟩
        have inside := (List.getElem?_eq_some_iff.mp isTag).1
        have same : position = selected :=
          (List.getElem?_inj inside kept.distinct).mp
            (isTag.trans sameTag.symm)
        subst same
        have sameIds :
            after.warps.map Warp.warpId =
              watch.sm.tickStalls.warps.map Warp.warpId :=
          (Accounting.tick_ids ran).trans
            (Accounting.tickStalls_ids watch.sm).symm
        have foundId :
            (watch.sm.tickStalls.warps.map Warp.warpId)[position]? =
              some warp.warpId := by
          rw [← sameIds, List.getElem?_map, found]
          rfl
        rw [List.getElem?_map, Option.map_eq_some_iff] at foundId
        rcases foundId with ⟨stalled, isStalled, sameId⟩
        rw [← sameId]
        rw [selected?_eq kept.scheduled] at isSelected
        exact (selectWarp_remembers isSelected isStalled).symm
      · intro tag isLast
        rw [if_neg Bool.false_ne_true] at isLast
        rcases Option.bind_eq_some_iff.mp isLast with
          ⟨selected, _, isTag⟩
        rcases Pointwise.origin kept.related isTag with ⟨_, _, pair⟩
        exact pair.2.1

/-- The step lemma: every operation keeps the last warp's id remembered. -/
theorem Kept.step
    {after : Watch}
    (ids :
      ∀ block,
        admissible block →
        ∀ warp ∈ block.warps, warp.warpId < 2 ^ 64 - 1)
    (kept : Kept watch policy)
    (operation : Step admissible watch after) :
    ∃ next, Kept after next := by
  cases operation with
  | clear => exact ⟨policy, kept.clear⟩
  | allocate isAdmissible req =>
      exact ⟨policy, kept.allocate (ids _ isAdmissible) req⟩
  | release => exact ⟨policy, kept.release⟩
  | tick ran => exact kept.tick ran

/-- The run lemma: in every history the last warp's id is remembered. -/
theorem History.kept
    (ids :
      ∀ block,
        admissible block →
        ∀ warp ∈ block.warps, warp.warpId < 2 ^ 64 - 1)
    (history : History admissible watch) :
    ∃ policy, Kept watch policy := by
  induction history with
  | fresh vacant scheduled =>
      rename_i sm policy
      refine ⟨policy, scheduled, List.nodup_nil, ?_, nofun⟩
      rw [vacant.warps]
      exact .nil
  | step _ operation inductionHypothesis =>
      rcases inductionHypothesis with ⟨policy, kept⟩
      exact kept.step ids operation

/-- The warp issued last has the remembered id, which is usable. -/
theorem Kept.last_id
    {position : Nat}
    {warp : Warp}
    (kept : Kept watch policy)
    (last : LastReadyAt watch position)
    (found : watch.sm.tickStalls.warps[position]? = some warp) :
    warp.state = .ready ∧
      warp.warpId = policy.lastIssuedWarpId ∧ warp.warpId < 2 ^ 64 - 1 := by
  rcases last with ⟨tag, isLast, isTag, other, isOther, ready⟩
  rw [found, Option.some.injEq] at isOther
  subst isOther
  have stalls :=
    Accounting.labels_congr (Named watch policy)
      (Accounting.tickStalls_ids watch.sm) kept.related
  rcases Pointwise.related_at stalls found isTag with ⟨usable, _, isId⟩
  exact ⟨ready, isId isLast, usable⟩

/-- The warp issued last is one of those with the remembered id. -/
theorem Kept.remembered_of_last
    {position : Nat}
    (kept : Kept watch policy)
    (last : LastReadyAt watch position) :
    (remembered policy watch.sm.tickStalls.warps).isSome = true := by
  rcases last.ready with ⟨warp, found, ready⟩
  rcases kept.last_id last found with ⟨_, isId, usable⟩
  exact
    remembered_isSome (List.mem_of_getElem? found) ready isId usable

/-- There is one warp that was issued last. -/
theorem Kept.last_unique
    {first second : Nat}
    (kept : Kept watch policy)
    (isFirst : LastReadyAt watch first)
    (isSecond : LastReadyAt watch second) :
    first = second := by
  rcases isFirst with ⟨tag, isLast, isTag, _⟩
  rcases isSecond with ⟨other, isLastToo, isOther, _⟩
  rw [isLast, Option.some.injEq] at isLastToo
  subst isLastToo
  exact
    (List.getElem?_inj (List.getElem?_eq_some_iff.mp isTag).1
      kept.distinct).mp (isTag.trans isOther.symm)

/-- Without a remembered warp the selection is greedy. -/
theorem Kept.greedy_of_none
    (kept : Kept watch policy)
    (none : remembered policy watch.sm.tickStalls.warps = none) :
    Greedy watch := by
  have selected : watch.sm.selected? = oldestReady watch.sm.tickStalls.warps := by
    rw [selected?_eq kept.scheduled, selectWarp_selected, none]
    rfl
  refine ⟨fun position last => ?_, fun _ position isSelected => ?_, ?_⟩
  · have isSome := kept.remembered_of_last last
    rw [none] at isSome
    cases isSome
  · rw [selected] at isSelected
    exact isOldest_of_oldestReady isSelected
  · intro nothing position
    rw [selected?_eq kept.scheduled] at nothing
    exact none_ready nothing

/-- The selection of the warp issued last is greedy. -/
theorem Kept.greedy_of_last
    {position : Nat}
    (kept : Kept watch policy)
    (selected : watch.sm.selected? = some position)
    (isLast : LastReadyAt watch position) :
    Greedy watch := by
  refine ⟨fun other last => ?_, fun noLast _ _ => ?_, ?_⟩
  · rw [kept.last_unique last isLast, selected]
  · exact (noLast ⟨position, isLast⟩).elim
  · rw [selected]
    nofun

/-- A remembered warp is the first ready one with the id, and is selected. -/
theorem Kept.selected_of_remembered
    {position : Nat}
    (kept : Kept watch policy)
    (first :
      remembered policy watch.sm.tickStalls.warps = some position) :
    watch.sm.selected? = some position ∧
      (∃ warp,
        watch.sm.tickStalls.warps[position]? = some warp ∧
          warp.state = .ready ∧
          warp.warpId = policy.lastIssuedWarpId) ∧
      ∀ earlier < position,
        ∀ warp,
          watch.sm.tickStalls.warps[earlier]? = some warp →
          warp.state = .ready →
          warp.warpId ≠ policy.lastIssuedWarpId := by
  have isSelected : watch.sm.selected? = some position := by
    rw [selected?_eq kept.scheduled, selectWarp_selected, first]
    rfl
  unfold remembered at first
  split at first
  · rw [TwoLevelScheduler.readyWithId?, List.findIdx?_eq_some_iff_getElem]
      at first
    rcases first with ⟨inside, passes, noneBefore⟩
    rw [Bool.and_eq_true, beq_iff_eq, beq_iff_eq] at passes
    refine
      ⟨isSelected,
        ⟨_, List.getElem?_eq_getElem inside, passes.2, passes.1⟩, ?_⟩
    intro earlier isEarlier warp found ready isId
    refine noneBefore earlier isEarlier ?_
    rcases List.getElem?_eq_some_iff.mp found with ⟨_, rfl⟩
    rw [Bool.and_eq_true, beq_iff_eq, beq_iff_eq]
    exact ⟨isId, ready⟩
  · cases first

/-- While the remembered id is its own, the selection is greedy. -/
theorem Kept.greedy_of_ownId
    (kept : Kept watch policy)
    (own : OwnId watch) :
    Greedy watch := by
  cases first : remembered policy watch.sm.tickStalls.warps with
  | none => exact kept.greedy_of_none first
  | some position =>
      rcases kept.selected_of_remembered first with
        ⟨selected, ⟨warp, found, ready, isId⟩, noneBefore⟩
      rcases own policy position warp kept.scheduled found ready isId with
        ⟨earlier, notAfter, last⟩
      have notBefore : ¬ earlier < position := by
        intro before
        rcases last.ready with ⟨issued, isIssued, _⟩
        rcases kept.last_id last isIssued with ⟨isReady, isItsId, _⟩
        exact noneBefore earlier before issued isIssued isReady isItsId
      have same : earlier = position :=
        notAfter.antisymm (Nat.not_lt.mp notBefore)
      exact kept.greedy_of_last selected (same ▸ last)

/-- With distinct ids the id of a resident warp issued last is its own. -/
theorem Kept.ownId_of_distinctIds
    {tag : Nat}
    (kept : Kept watch policy)
    (distinct : (watch.sm.warps.map Warp.warpId).Nodup)
    (isLast : watch.last = some tag)
    (resident : tag ∈ watch.tags) :
    OwnId watch := by
  intro other position warp scheduled found ready isId
  rw [kept.scheduled, Option.some.injEq, Scheduler.gto.injEq] at scheduled
  subst scheduled
  have stalls :=
    Accounting.labels_congr (Named watch policy)
      (Accounting.tickStalls_ids watch.sm) kept.related
  rcases List.mem_iff_getElem?.mp resident with ⟨last, isTag⟩
  rcases Pointwise.origin stalls isTag with ⟨issued, isIssued, _, _, isItsId⟩
  rw [← Accounting.tickStalls_ids] at distinct
  have same : position = last := by
    refine
      (List.getElem?_inj (i := position) (j := last) ?_ distinct).mp ?_
    · rw [List.length_map]
      exact (List.getElem?_eq_some_iff.mp found).1
    · rw [List.getElem?_map, List.getElem?_map, found, isIssued,
        Option.map_some, Option.map_some, isId, isItsId isLast]
  subst same
  exact ⟨position, Nat.le_refl _, tag, isLast, isTag, warp, found, ready⟩

/-- A policy that remembers no id has no warp to confuse. -/
theorem Kept.ownId_of_forgotten
    (kept : Kept watch policy)
    (forgotten : policy.lastIssuedWarpId = 2 ^ 64 - 1) :
    OwnId watch := by
  intro other position warp scheduled found _ isId
  rw [kept.scheduled, Option.some.injEq, Scheduler.gto.injEq] at scheduled
  subst scheduled
  have stalls :=
    Accounting.labels_congr (Named watch policy)
      (Accounting.tickStalls_ids watch.sm) kept.related
  rcases Pointwise.partner stalls found with ⟨_, _, usable, _⟩
  omega

end Kept

/--
While the warp issued last is ready, nothing less will do: the next selection is
greedy exactly if the remembered id is that warp's own.
-/
theorem greedy_iff_ownId
    {admissible : ThreadBlock → Prop}
    {watch : Watch}
    {position : Nat}
    (ids :
      ∀ block,
        admissible block →
        ∀ warp ∈ block.warps, warp.warpId < 2 ^ 64 - 1)
    (history : History admissible watch)
    (last : LastReadyAt watch position) :
    Greedy watch ↔ OwnId watch := by
  rcases history.kept ids with ⟨policy, kept⟩
  refine ⟨fun greedy => ?_, kept.greedy_of_ownId⟩
  intro other index warp scheduled found ready isId
  rw [kept.scheduled, Option.some.injEq, Scheduler.gto.injEq] at scheduled
  subst scheduled
  refine ⟨position, Nat.not_lt.mp fun before => ?_, last⟩
  rcases Option.isSome_iff_exists.mp (kept.remembered_of_last last) with
    ⟨chosen, first⟩
  rcases kept.selected_of_remembered first with ⟨selected, _, noneBefore⟩
  rw [greedy.same position last, Option.some.injEq] at selected
  subst selected
  exact noneBefore index before warp found ready isId

/--
In every run of operations on admitted blocks whose warp ids are below the
largest `size_t`, in which the remembered id is always its own, every selection
is greedy.
-/
theorem greedy_of_ownIds
    {admissible : ThreadBlock → Prop}
    {states : Nat → Watch}
    {rounds : Nat}
    (ids :
      ∀ block,
        admissible block →
        ∀ warp ∈ block.warps, warp.warpId < 2 ^ 64 - 1)
    (history : History admissible (states 0))
    (steps :
      ∀ round < rounds,
        Step admissible (states round) (states (round + 1)))
    (own : ∀ round ≤ rounds, OwnId (states round)) :
    ∀ round ≤ rounds, Greedy (states round) := by
  intro round within
  rcases (history.run steps round within).kept ids with ⟨policy, kept⟩
  exact kept.greedy_of_ownId (own round within)

/-! ## A load between moves -/

/-- A load between moves. -/
def mixedKernel : Kernel where
  instructions :=
    [⟨.mov, 2, -1, -1, 0⟩,
      ⟨.load, 1, -1, -1, 0x10000000⟩,
      ⟨.mov, 2, -1, -1, 0⟩,
      ⟨.mov, 2, -1, -1, 0⟩]
  lengthFits := by decide

/-- A history after one more tick, when that does not throw. -/
def Watch.stepped (watch : Watch) : Watch :=
  { watch with
    sm := watch.sm.stepped mixedKernel (Latency.loadMemory 3)
    last :=
      if watch.sm.isCompleted then
        watch.last
      else
        watch.sm.selected?.bind (watch.tags[·]?) }

/-- One more tick is a step. -/
theorem Step.stepped
    {admissible : ThreadBlock → Prop}
    {watch : Watch}
    (isOk :
      (watch.sm.tick mixedKernel (Latency.loadMemory 3)).isOk = true) :
    Step admissible watch watch.stepped := by
  rcases SM.tick_stepped isOk with ⟨_, ran⟩
  exact .tick ran

/-- One block of three warps, before the first tick. -/
def trioStart : Watch where
  sm :=
    (SM.vacantWith (Scheduler.gto {})).allocateBlock Benchmarks.trioBlock
      ⟨0, 0⟩
  tags := [0, 1, 2]
  next := 3

/-- It has a history. -/
theorem trioStart_history :
    History (fun block => block ∈ Benchmarks.trioGrid.blocks) trioStart := by
  have vacant :
      History (fun block => block ∈ Benchmarks.trioGrid.blocks)
        { sm := SM.vacantWith (Scheduler.gto {}) } :=
    .fresh (SM.vacantWith_vacant _) rfl
  have admitted :=
    vacant.step (.allocate Benchmarks.trioBlock_mem ⟨0, 0⟩)
  have length : Benchmarks.trioBlock.warps.length = 3 := by
    decide +kernel
  dsimp only at admitted
  rw [length] at admitted
  exact admitted

/-- The watches after some ticks. -/
def trioRun (round : Nat) : Watch :=
  Watch.stepped^[round] trioStart

/-- Each tick of the first eight is a step. -/
theorem trioRun_steps :
    ∀ round < 8,
      Step (fun block => block ∈ Benchmarks.trioGrid.blocks) (trioRun round)
        (trioRun (round + 1)) := by
  intro round within
  rw [trioRun, trioRun, Function.iterate_succ_apply']
  refine .stepped ?_
  revert round
  decide +kernel

/--
Three warps take turns: a warp keeps its turn until its load stalls it, although
others woke up before.
-/
theorem greedy_of_ownIds_trio :
    (∀ round ≤ 8, Greedy (trioRun round)) ∧
      ((List.range 9).map fun round => (trioRun round).sm.selected?) =
        [0, 0, 1, 1, 2, 2, 0, 0, 1].map some := by
  refine ⟨?_, by decide +kernel⟩
  refine
    greedy_of_ownIds Benchmarks.warpId_lt_trio trioStart_history
      trioRun_steps ?_
  intro round within
  have reached := trioStart_history.run trioRun_steps round within
  rcases reached.kept Benchmarks.warpId_lt_trio with ⟨policy, kept⟩
  rcases Nat.eq_zero_or_pos round with rfl | positive
  · have scheduled : (trioRun 0).sm.scheduler = some (.gto {}) := by
      decide +kernel
    rw [kept.scheduled, Option.some.injEq, Scheduler.gto.injEq] at scheduled
    exact kept.ownId_of_forgotten (by rw [scheduled])
  · have distinct :
        ∀ round ≤ 8, ((trioRun round).sm.warps.map Warp.warpId).Nodup := by
      decide +kernel
    have resident :
        ∀ round ≤ 8,
          0 < round →
          ∃ tag ∈ (trioRun round).tags, (trioRun round).last = some tag := by
      decide +kernel
    rcases resident round within positive with ⟨tag, isResident, isLast⟩
    exact
      kept.ownId_of_distinctIds (distinct round within) isLast isResident

/-! ## Two blocks on one multiprocessor -/

/-- Two blocks of one warp each, before the first tick. -/
def pairStart : Watch where
  sm :=
    ((SM.vacantWith (Scheduler.gto {})).allocateBlock
        (Benchmarks.pairBlock 0) ⟨0, 0⟩).allocateBlock
      (Benchmarks.pairBlock 1) ⟨0, 0⟩
  tags := [0, 1]
  next := 2

/-- It has a history. -/
theorem pairStart_history :
    History (fun block => block ∈ Benchmarks.pairGrid.blocks) pairStart := by
  have vacant :
      History (fun block => block ∈ Benchmarks.pairGrid.blocks)
        { sm := SM.vacantWith (Scheduler.gto {}) } :=
    .fresh (SM.vacantWith_vacant _) rfl
  have both :=
    (vacant.step
        (.allocate (Benchmarks.pairBlock_mem Nat.two_pos) ⟨0, 0⟩)).step
      (.allocate (Benchmarks.pairBlock_mem Nat.one_lt_two) ⟨0, 0⟩)
  have firstLength : (Benchmarks.pairBlock 0).warps.length = 1 := by
    decide +kernel
  have secondLength : (Benchmarks.pairBlock 1).warps.length = 1 := by
    decide +kernel
  dsimp only at both
  rw [firstLength, secondLength] at both
  exact both

/-- What is seen of a watch before a selection. -/
def Watch.seen (watch : Watch) : Option Nat × List Nat × Option Nat × Bool :=
  (watch.last, watch.tags, watch.sm.selected?,
    readyAt watch.sm.tickStalls.warps 1)

/--
With two blocks of the benchmark grid, the load of the first warp delays it;
the second warp is issued, and loses its turn when the first one wakes up.
-/
theorem gto_leaves_last :
    ¬ ∀ (numThreads blockSize warpSize : Nat) (strided : Bool)
        (grid : Grid) (watch : Watch),
        1 ≤ blockSize →
        1 ≤ warpSize →
        warpSize ≤ 32 →
        Benchmarks.buildBenchmarkGrid numThreads blockSize warpSize strided =
          .ok grid →
        History (fun block => block ∈ grid.blocks) watch →
        watch.sm.isCompleted = false →
        Greedy watch := by
  intro always
  have history :=
    ((pairStart_history.step (.stepped (by decide +kernel))).step
      (.stepped (by decide +kernel))).step (.stepped (by decide +kernel))
  have seen :
      pairStart.stepped.stepped.stepped.seen =
        (some 1, [0, 1], some 0, true) := by
    decide +kernel
  simp only [Watch.seen, Prod.mk.injEq] at seen
  rcases seen with ⟨last, tags, selected, ready⟩
  have greedy :=
    always 2 1 1 false Benchmarks.pairGrid _ (Nat.le_refl 1)
      (Nat.le_refl 1) (by decide) Benchmarks.buildBenchmarkGrid_pair
      history (by decide +kernel)
  have same :=
    greedy.same 1 ⟨1, last, by rw [tags]; rfl, readyAt_iff.mp ready⟩
  rw [selected] at same
  cases same

end GreedyThenOldest

end SimSm
