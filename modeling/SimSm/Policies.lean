import SimSm.Scheduler

namespace SimSm

/-!
# What the scheduling policies select

Each policy selects ready warps only.  Four of the six select some ready warp
whenever there is one; the other two have a blind spot.
-/

/-- There is a ready warp at a position. -/
def ReadyAt (warps : List Warp) (index : Nat) : Prop :=
  ∃ warp, warps[index]? = some warp ∧ warp.state = .ready

theorem readyAt_iff
    {warps : List Warp}
    {index : Nat} :
    readyAt warps index = true ↔ ReadyAt warps index := by
  unfold readyAt ReadyAt
  cases warps[index]? with
  | none => simp
  | some warp => simp

/-- A ready warp has a position. -/
theorem exists_readyAt
    {warps : List Warp}
    {warp : Warp}
    (member : warp ∈ warps)
    (ready : warp.state = .ready) :
    ∃ index, ReadyAt warps index := by
  obtain ⟨index, found⟩ := List.mem_iff_getElem?.mp member
  exact ⟨index, warp, found, ready⟩

/-- A position found by a test on warps holds a warp that passes it. -/
theorem findIdx?_passes
    {warps : List Warp}
    {index : Nat}
    {test : Warp → Bool}
    (found : warps.findIdx? test = some index) :
    ∃ warp, warps[index]? = some warp ∧ test warp = true := by
  obtain ⟨inside, passes, _⟩ :=
    List.findIdx?_eq_some_iff_getElem.mp found
  exact ⟨warps[index], List.getElem?_eq_getElem inside, passes⟩

/-- A test that some warp passes finds a position. -/
theorem findIdx?_isSome
    {warps : List Warp}
    {warp : Warp}
    {test : Warp → Bool}
    (member : warp ∈ warps)
    (passes : test warp = true) :
    (warps.findIdx? test).isSome = true := by
  rw [List.findIdx?_isSome, List.any_eq_true]
  exact ⟨warp, member, passes⟩

/--
A fold that never forgets a success succeeds when one of its elements makes it
succeed.
-/
theorem foldl_succeeds
    {α β : Type}
    {step : β → α → β}
    (succeeded invariant : β → Prop)
    {elements : List α}
    {element : α}
    {initial : β}
    (member : element ∈ elements)
    (holds : invariant initial)
    (keepsInvariant :
      ∀ {state : β} (next : α), invariant state → invariant (step state next))
    (keepsSuccess :
      ∀ {state : β} (next : α), succeeded state → succeeded (step state next))
    (succeeds : ∀ {state : β}, invariant state → succeeded (step state element)) :
    succeeded (elements.foldl step initial) := by
  induction elements generalizing initial with
  | nil => simp at member
  | cons head rest inductionHypothesis =>
      rw [List.foldl_cons]
      rcases List.mem_cons.mp member with rfl | inRest
      · exact
          List.foldlRecOn rest step (succeeds holds)
            fun _ success next _ => keepsSuccess next success
      · exact inductionHypothesis inRest (keepsInvariant head holds)

/-! ## Round robin -/

theorem RoundRobinScheduler.selectWarp_ready
    {scheduler : RoundRobinScheduler}
    {warps : List Warp}
    {index : Nat}
    (selected : (scheduler.selectWarp warps).1 = some index) :
    ReadyAt warps index := by
  unfold RoundRobinScheduler.selectWarp at selected
  dsimp only at selected
  split at selected
  · cases selected
  · rename_i found
    cases selected
    have passes := List.find?_some found
    exact readyAt_iff.mp passes

/-- Cyclic positions reach every position. -/
theorem exists_cyclic
    {size index : Nat}
    (start : Nat)
    (inside : index < size) :
    ∃ i, i < size ∧ (start + i) % size = index := by
  refine ⟨(index + (size - start % size)) % size, Nat.mod_lt _ (by omega), ?_⟩
  have startBound : start % size < size := Nat.mod_lt _ (by omega)
  rw [Nat.add_mod_mod, ← Nat.mod_add_mod]
  have shape :
      start % size + (index + (size - start % size)) = index + size := by
    omega
  rw [shape, Nat.add_mod_right, Nat.mod_eq_of_lt inside]

theorem RoundRobinScheduler.selectWarp_isSome
    (scheduler : RoundRobinScheduler)
    {warps : List Warp}
    {index : Nat}
    (ready : ReadyAt warps index) :
    (scheduler.selectWarp warps).1.isSome = true := by
  obtain ⟨warp, found, isReady⟩ := ready
  have inside := (List.getElem?_eq_some_iff.mp found).1
  obtain ⟨i, bound, position⟩ :=
    exists_cyclic scheduler.nextWarpIndex inside
  unfold RoundRobinScheduler.selectWarp
  dsimp only
  split
  · rename_i none
    rw [List.find?_eq_none] at none
    have notReady := none i (List.mem_range.mpr bound)
    rw [position] at notReady
    exact (notReady (readyAt_iff.mpr ⟨warp, found, isReady⟩)).elim
  · rfl

/-! ## Greedy -/

theorem GreedyScheduler.selectWarp_ready
    {warps : List Warp}
    {index : Nat}
    (selected : GreedyScheduler.selectWarp warps = some index) :
    ReadyAt warps index := by
  obtain ⟨warp, found, ready⟩ := findIdx?_passes selected
  exact ⟨warp, found, by simpa using ready⟩

theorem GreedyScheduler.selectWarp_isSome
    {warps : List Warp}
    {index : Nat}
    (ready : ReadyAt warps index) :
    (GreedyScheduler.selectWarp warps).isSome = true := by
  obtain ⟨warp, found, isReady⟩ := ready
  exact findIdx?_isSome (List.mem_of_getElem? found) (by simp [isReady])

/-! ## Priority -/

namespace PriorityScheduler

/-- The best position so far holds a ready warp; without one, no bar is set. -/
def Sound (warps : List Warp) (best : Option Nat × Int) : Prop :=
  match best.1 with
  | none => best.2 = lowest
  | some index => ReadyAt warps index

theorem consider_sound
    {warps : List Warp}
    {best : Option Nat × Int}
    (idx : Nat)
    (sound : Sound warps best) :
    Sound warps (consider warps best idx) := by
  unfold consider
  split
  · exact sound
  · rename_i warp found
    split
    · rename_i better
      exact ⟨warp, found, better.1⟩
    · exact sound

theorem consider_isSome
    {warps : List Warp}
    {best : Option Nat × Int}
    (idx : Nat)
    (some : best.1.isSome = true) :
    (consider warps best idx).1.isSome = true := by
  unfold consider
  split
  · exact some
  · split
    · rfl
    · exact some

theorem selectWarp_ready
    {scheduler : PriorityScheduler}
    {warps : List Warp}
    {index : Nat}
    (selected : (scheduler.selectWarp warps).1 = some index) :
    ReadyAt warps index := by
  have sound :
      Sound warps
        (((List.range warps.length).map fun i =>
            (scheduler.nextWarpIndex + i) % warps.length).foldl
          (consider warps) (none, lowest)) :=
    List.foldlRecOn _ _ rfl fun _ holds idx _ => consider_sound idx holds
  unfold selectWarp at selected
  dsimp only at selected
  split at selected
  · cases selected
  · rename_i best
    cases selected
    rw [Sound, best] at sound
    exact sound

/-- A ready warp above the lowest priority makes the policy select. -/
theorem selectWarp_isSome
    (scheduler : PriorityScheduler)
    {warps : List Warp}
    {index : Nat}
    {warp : Warp}
    (found : warps[index]? = some warp)
    (ready : warp.state = .ready)
    (above : lowest < warp.priority) :
    (scheduler.selectWarp warps).1.isSome = true := by
  have inside := (List.getElem?_eq_some_iff.mp found).1
  obtain ⟨i, bound, position⟩ :=
    exists_cyclic scheduler.nextWarpIndex inside
  have best :
      (((List.range warps.length).map fun i =>
          (scheduler.nextWarpIndex + i) % warps.length).foldl
        (consider warps) (none, lowest)).1.isSome = true := by
    refine
      foldl_succeeds (fun best : Option Nat × Int => best.1.isSome = true)
        (Sound warps)
        (List.mem_map.mpr ⟨i, List.mem_range.mpr bound, rfl⟩) rfl
        consider_sound consider_isSome ?_
    intro best sound
    rw [position]
    unfold consider
    rw [found]
    dsimp only
    split
    · rfl
    · rename_i notBetter
      cases shape : best.1 with
      | none =>
          rw [Sound, shape] at sound
          exact (notBetter ⟨ready, by rw [sound]; exact above⟩).elim
      | some _ => rfl
  unfold selectWarp
  dsimp only
  split
  · rename_i none
    rw [none] at best
    cases best
  · rfl

/-- The policy selects nothing exactly when no ready warp is above the lowest. -/
theorem selectWarp_eq_none_iff
    {scheduler : PriorityScheduler}
    {warps : List Warp} :
    (scheduler.selectWarp warps).1 = none ↔
      ∀ warp ∈ warps, warp.state = .ready → warp.priority ≤ lowest := by
  constructor
  · intro none warp member ready
    obtain ⟨index, found⟩ := List.mem_iff_getElem?.mp member
    by_contra above
    have some :=
      selectWarp_isSome scheduler found ready (Int.not_le.mp above)
    rw [none] at some
    cases some
  · intro low
    have unmoved :
        ((List.range warps.length).map fun i =>
            (scheduler.nextWarpIndex + i) % warps.length).foldl
          (consider warps) (none, lowest) = (none, lowest) := by
      refine
        List.foldlRecOn (motive := fun best => best = (none, lowest))
          _ _ rfl ?_
      rintro best rfl idx _
      unfold consider
      split
      · rfl
      · rename_i warp found
        rw [if_neg]
        rintro ⟨ready, above⟩
        exact
          Int.not_le.mpr above (low warp (List.mem_of_getElem? found) ready)
    unfold selectWarp
    dsimp only
    rw [unmoved]

end PriorityScheduler

/-! ## Oldest first -/

/-- The oldest warp so far is a ready one at its position. -/
def OldestSound (warps : List Warp) (best : Option (Nat × Warp)) : Prop :=
  ∀ pair, best = some pair →
    warps[pair.1]? = some pair.2 ∧ pair.2.state = .ready

theorem considerOldest_sound
    {warps : List Warp}
    {best : Option (Nat × Warp)}
    {candidate : Warp × Nat}
    (member : candidate ∈ warps.zipIdx)
    (sound : OldestSound warps best) :
    OldestSound warps (considerOldest best candidate) := by
  have found : warps[candidate.2]? = some candidate.1 :=
    List.mem_zipIdx_iff_getElem?.mp member
  unfold considerOldest
  split
  · rename_i ready
    split
    · rintro pair ⟨⟩
      exact ⟨found, ready⟩
    · split
      · rintro pair ⟨⟩
        exact ⟨found, ready⟩
      · rename_i shape _
        rintro pair ⟨⟩
        exact sound _ rfl
  · exact sound

/-- Considering a ready warp leaves some warp selected. -/
theorem considerOldest_isSome
    {best : Option (Nat × Warp)}
    {candidate : Warp × Nat}
    (some : best.isSome = true ∨ candidate.1.state = .ready) :
    (considerOldest best candidate).isSome = true := by
  unfold considerOldest
  split
  · split
    · rfl
    · split <;> rfl
  · rename_i notReady
    exact some.resolve_right notReady

theorem oldestReady_ready
    {warps : List Warp}
    {index : Nat}
    (selected : oldestReady warps = some index) :
    ReadyAt warps index := by
  obtain ⟨⟨_, warp⟩, best, rfl⟩ := Option.map_eq_some_iff.mp selected
  have sound :
      OldestSound warps (warps.zipIdx.foldl considerOldest none) :=
    List.foldlRecOn _ _ (fun _ shape => nomatch shape)
      fun _ holds _ member => considerOldest_sound member holds
  obtain ⟨found, ready⟩ := sound _ best
  exact ⟨warp, found, ready⟩

theorem oldestReady_isSome
    {warps : List Warp}
    {index : Nat}
    (ready : ReadyAt warps index) :
    (oldestReady warps).isSome = true := by
  obtain ⟨warp, found, isReady⟩ := ready
  have member : (warp, index) ∈ warps.zipIdx :=
    List.mem_zipIdx_iff_getElem?.mpr found
  unfold oldestReady
  rw [Option.isSome_map]
  exact
    foldl_succeeds (fun best : Option (Nat × Warp) => best.isSome = true)
      (fun _ => True) member trivial
      (fun _ _ => trivial)
      (fun _ some => considerOldest_isSome (Or.inl some))
      (by
        intro best _
        exact considerOldest_isSome (Or.inr isReady))

/-- Age order, spelled out. -/
theorem olderThan_iff
    {first second : Warp} :
    olderThan first second = true ↔
      first.readySinceCycle < second.readySinceCycle ∨
        first.readySinceCycle = second.readySinceCycle ∧
          first.warpId < second.warpId := by
  unfold olderThan
  split
  · rename_i earlier
    exact iff_of_true rfl (Or.inl earlier)
  · rename_i notEarlier
    simp [notEarlier]

/-- A warp that is not older than another one is as old or younger. -/
theorem olderThan_eq_false_iff
    {first second : Warp} :
    olderThan first second = false ↔
      second.readySinceCycle < first.readySinceCycle ∨
        second.readySinceCycle = first.readySinceCycle ∧
          second.warpId ≤ first.warpId := by
  rw [← Bool.not_eq_true, olderThan_iff]
  omega

/-- Older than one that some third warp does not precede. -/
theorem olderThan_trans
    {first second third : Warp}
    (older : olderThan first second = true)
    (notOlder : olderThan third second = false) :
    olderThan first third = true := by
  rw [olderThan_iff] at older ⊢
  rw [olderThan_eq_false_iff] at notOlder
  omega

/-- The oldest ready warp, the first of them in position. -/
structure OldestAt (warps : List Warp) (index : Nat) (warp : Warp) : Prop where
  found : warps[index]? = some warp
  ready : warp.state = .ready
  before :
    ∀ position other,
      position < index →
      warps[position]? = some other →
      other.state = .ready →
      olderThan warp other = true
  after :
    ∀ position other,
      index < position →
      warps[position]? = some other →
      other.state = .ready →
      olderThan other warp = false

/-- No ready warp is older than the oldest one. -/
theorem OldestAt.notOlder
    {warps : List Warp}
    {index : Nat}
    {warp other : Warp}
    (oldest : OldestAt warps index warp)
    (member : other ∈ warps)
    (ready : other.state = .ready) :
    olderThan other warp = false := by
  rcases List.mem_iff_getElem?.mp member with ⟨position, found⟩
  rcases Nat.lt_trichotomy position index with earlier | same | later
  · have older := oldest.before position other earlier found ready
    rw [olderThan_iff] at older
    rw [olderThan_eq_false_iff]
    omega
  · subst same
    rw [oldest.found, Option.some.injEq] at found
    subst found
    rw [olderThan_eq_false_iff]
    omega
  · exact oldest.after position other later found ready

/-- There is one oldest position. -/
theorem OldestAt.unique
    {warps : List Warp}
    {index other : Nat}
    {warp otherWarp : Warp}
    (oldest : OldestAt warps index warp)
    (otherOldest : OldestAt warps other otherWarp) :
    index = other := by
  rcases Nat.lt_trichotomy index other with earlier | same | later
  · have older :=
      otherOldest.before index warp earlier oldest.found oldest.ready
    rw [oldest.after other otherWarp earlier otherOldest.found
      otherOldest.ready] at older
    cases older
  · exact same
  · have older :=
      oldest.before other otherWarp later otherOldest.found
        otherOldest.ready
    rw [otherOldest.after index warp later oldest.found
      oldest.ready] at older
    cases older

/-- One more warp that is not ready, or not older, changes nothing. -/
theorem OldestAt.concat_kept
    {warps : List Warp}
    {index : Nat}
    {warp last : Warp}
    (oldest : OldestAt warps index warp)
    (notOlder :
      last.state = .ready → olderThan last warp = false) :
    OldestAt (warps ++ [last]) index warp := by
  have inside := (List.getElem?_eq_some_iff.mp oldest.found).1
  refine
    ⟨by rw [List.getElem?_append_left inside, oldest.found], oldest.ready,
      fun position other earlier found => ?_,
      fun position other later found ready => ?_⟩
  · rw [List.getElem?_append_left (earlier.trans inside)] at found
    exact oldest.before position other earlier found
  · rcases Nat.lt_or_ge position warps.length with old | new
    · rw [List.getElem?_append_left old] at found
      exact oldest.after position other later found ready
    · rw [List.getElem?_append_right new] at found
      have isLast := List.mem_of_getElem? found
      rw [List.mem_singleton] at isLast
      subst isLast
      exact notOlder ready

/-- One more warp that is older than the oldest takes its place. -/
theorem OldestAt.concat_older
    {warps : List Warp}
    {index : Nat}
    {warp last : Warp}
    (oldest : OldestAt warps index warp)
    (ready : last.state = .ready)
    (older : olderThan last warp = true) :
    OldestAt (warps ++ [last]) warps.length last where
  found := by
    rw [List.getElem?_append_right (Nat.le_refl _), Nat.sub_self]
    rfl
  ready := ready
  before position other earlier found isReady := by
    rw [List.getElem?_append_left earlier] at found
    exact
      olderThan_trans older
        (oldest.notOlder (List.mem_of_getElem? found) isReady)
  after position other later found _ := by
    have inside := (List.getElem?_eq_some_iff.mp found).1
    rw [List.length_append, List.length_singleton] at inside
    omega

/-- The loop keeps the oldest ready warp of what it has seen. -/
theorem oldestReady_fold
    (warps : List Warp) :
    ∀ index warp,
      warps.zipIdx.foldl considerOldest none = some (index, warp) →
      OldestAt warps index warp := by
  induction warps using List.reverseRecOn with
  | nil => nofun
  | append_singleton warps last inductionHypothesis =>
      intro index warp best
      rw [List.zipIdx_append, List.foldl_append, Nat.zero_add,
        List.zipIdx_singleton, List.foldl_cons, List.foldl_nil] at best
      cases earlier : warps.zipIdx.foldl considerOldest none with
      | none =>
          rw [earlier] at best
          have noneReady (other : Warp) (member : other ∈ warps) :
              other.state ≠ .ready := by
            intro ready
            rcases exists_readyAt member ready with ⟨position, readyAt⟩
            have isSome := oldestReady_isSome readyAt
            rw [oldestReady, earlier] at isSome
            cases isSome
          unfold considerOldest at best
          split at best
          · rename_i ready
            cases best
            refine
              ⟨?_, ready, fun position other before found isReady => ?_,
                fun position other after found _ => ?_⟩
            · rw [List.getElem?_append_right (Nat.le_refl _), Nat.sub_self]
              rfl
            · rw [List.getElem?_append_left before] at found
              exact
                (noneReady other (List.mem_of_getElem? found) isReady).elim
            · have inside := (List.getElem?_eq_some_iff.mp found).1
              rw [List.length_append, List.length_singleton] at inside
              dsimp only at after
              omega
          · cases best
      | some pair =>
          rcases pair with ⟨bestIndex, bestWarp⟩
          have oldest := inductionHypothesis bestIndex bestWarp earlier
          rw [earlier] at best
          unfold considerOldest at best
          split at best
          · rename_i ready
            dsimp only at best
            split at best
            · rename_i older
              cases best
              exact oldest.concat_older ready older
            · rename_i notOlder
              cases best
              rw [Bool.not_eq_true] at notOlder
              exact oldest.concat_kept fun _ => notOlder
          · rename_i notReady
            cases best
            exact oldest.concat_kept fun ready => (notReady ready).elim

/-- The selected position holds the oldest ready warp. -/
theorem oldestReady_oldestAt
    {warps : List Warp}
    {index : Nat}
    (selected : oldestReady warps = some index) :
    ∃ warp, OldestAt warps index warp := by
  rcases Option.map_eq_some_iff.mp selected with ⟨⟨_, warp⟩, best, rfl⟩
  exact ⟨warp, oldestReady_fold warps _ warp best⟩

/-- The oldest ready warp is the one that is selected. -/
theorem OldestAt.selected
    {warps : List Warp}
    {index : Nat}
    {warp : Warp}
    (oldest : OldestAt warps index warp) :
    oldestReady warps = some index := by
  have isSome :=
    oldestReady_isSome ⟨warp, oldest.found, oldest.ready⟩
  rcases Option.isSome_iff_exists.mp isSome with ⟨selected, isSelected⟩
  rcases oldestReady_oldestAt isSelected with ⟨_, otherOldest⟩
  rw [isSelected, otherOldest.unique oldest]

/-! ## Greedy then oldest -/

namespace GTOScheduler

/-- The greedy choice, or else the oldest ready warp, is ready. -/
theorem chosen_ready
    {scheduler : GTOScheduler}
    {warps : List Warp}
    {index : Nat}
    (chosen :
      (if scheduler.lastIssuedWarpId ≠ 2 ^ 64 - 1 then
          warps.findIdx? fun warp =>
            warp.warpId == scheduler.lastIssuedWarpId &&
              warp.state == .ready
        else
          none).or (oldestReady warps) = some index) :
    ReadyAt warps index := by
  rcases Option.or_eq_some_iff.mp chosen with greedy | ⟨_, oldest⟩
  · split at greedy
    · obtain ⟨warp, found, passes⟩ := findIdx?_passes greedy
      simp only [Bool.and_eq_true, beq_iff_eq] at passes
      exact ⟨warp, found, passes.2⟩
    · cases greedy
  · exact oldestReady_ready oldest

theorem selectWarp_ready
    {scheduler : GTOScheduler}
    {warps : List Warp}
    {index : Nat}
    (selected : (scheduler.selectWarp warps).1 = some index) :
    ReadyAt warps index := by
  unfold selectWarp at selected
  dsimp only at selected
  split at selected
  · exact chosen_ready selected
  · cases selected

theorem selectWarp_isSome
    (scheduler : GTOScheduler)
    {warps : List Warp}
    {index : Nat}
    (ready : ReadyAt warps index) :
    (scheduler.selectWarp warps).1.isSome = true := by
  have oldest := oldestReady_isSome ready
  unfold selectWarp
  dsimp only
  split
  · rw [Option.isSome_or, oldest, Bool.or_true]
  · rename_i nothing
    have chosen :
        ((if scheduler.lastIssuedWarpId ≠ 2 ^ 64 - 1 then
            warps.findIdx? fun warp =>
              warp.warpId == scheduler.lastIssuedWarpId &&
                warp.state == .ready
          else
            none).or (oldestReady warps)).isSome = true := by
      rw [Option.isSome_or, oldest, Bool.or_true]
    obtain ⟨position, isChosen⟩ := Option.isSome_iff_exists.mp chosen
    obtain ⟨warp, found, _⟩ := chosen_ready isChosen
    rw [isChosen, Option.bind_some, found] at nothing
    cases nothing

end GTOScheduler

/-! ## Two-level -/

namespace TwoLevelScheduler

/-- Some ready warp has this id. -/
def HasReady (warps : List Warp) (id : Nat) : Prop :=
  ∃ warp ∈ warps, warp.warpId = id ∧ warp.state = .ready

theorem readyWithId?_isSome
    {warps : List Warp}
    {id : Nat} :
    (readyWithId? warps id).isSome = true ↔ HasReady warps id := by
  rw [readyWithId?, List.findIdx?_isSome, List.any_eq_true]
  simp [HasReady]

theorem readyWithId?_ready
    {warps : List Warp}
    {id index : Nat}
    (found : readyWithId? warps id = some index) :
    ReadyAt warps index := by
  obtain ⟨warp, atIndex, passes⟩ := findIdx?_passes found
  simp only [Bool.and_eq_true, beq_iff_eq] at passes
  exact ⟨warp, atIndex, passes.2⟩

theorem selectWarp_ready
    {scheduler : TwoLevelScheduler}
    {warps : List Warp}
    {index : Nat}
    (selected : (scheduler.selectWarp warps).1 = some index) :
    ReadyAt warps index := by
  unfold selectWarp at selected
  dsimp only at selected
  split at selected
  · cases selected
  · exact readyWithId?_ready selected

/-- Round robin over the active ids reaches each of them. -/
theorem exists_activeIdAt
    {scheduler : TwoLevelScheduler}
    {id : Nat}
    (member : id ∈ scheduler.activeWarpIds) :
    ∃ i, i < scheduler.activeWarpIds.length ∧
      scheduler.activeIdAt i = id := by
  obtain ⟨position, found⟩ := List.mem_iff_getElem?.mp member
  have inside := (List.getElem?_eq_some_iff.mp found).1
  obtain ⟨i, bound, isPosition⟩ := exists_cyclic scheduler.rrIndex inside
  refine ⟨i, bound, ?_⟩
  rw [activeIdAt, isPosition, List.getD_eq_getElem?_getD, found]
  rfl

/-- The policy selects exactly when an active id has a ready warp. -/
theorem selectWarp_isSome_iff
    {scheduler : TwoLevelScheduler}
    {warps : List Warp} :
    (scheduler.selectWarp warps).1.isSome = true ↔
      ∃ id ∈ (scheduler.updateActiveSet warps).activeWarpIds,
        HasReady warps id := by
  unfold selectWarp
  dsimp only
  split
  · rename_i none
    rw [List.find?_eq_none] at none
    constructor
    · intro some
      cases some
    · rintro ⟨id, member, ready⟩
      obtain ⟨i, bound, isId⟩ := exists_activeIdAt member
      have notReady := none i (List.mem_range.mpr bound)
      rw [isId] at notReady
      exact (notReady (readyWithId?_isSome.mpr ready)).elim
  · rename_i i found
    have passes := List.find?_some found
    have inside := List.mem_range.mp (List.mem_of_find?_eq_some found)
    refine ⟨fun _ => ⟨_, ?_, readyWithId?_isSome.mp passes⟩, fun _ => passes⟩
    have bound :=
      Nat.mod_lt ((scheduler.updateActiveSet warps).rrIndex + i)
        (Nat.zero_lt_of_lt inside)
    rw [activeIdAt, List.getD_eq_getElem?_getD,
      List.getElem?_eq_getElem bound]
    exact List.getElem_mem bound

/-- The active ids that survive the pruning of finished warps. -/
def pruned (scheduler : TwoLevelScheduler) (warps : List Warp) : List Nat :=
  scheduler.activeWarpIds.filter fun id => !finished warps id

/-- The active set stays full, and no ready warp has an id in it. -/
def Saturated (scheduler : TwoLevelScheduler) (warps : List Warp) : Prop :=
  scheduler.activeSetSize ≤ (scheduler.pruned warps).length ∧
    ∀ id ∈ scheduler.pruned warps, ¬HasReady warps id

/-- Every candidate is a ready warp. -/
theorem hasReady_of_candidate
    {warps : List Warp}
    {active : List Nat}
    {warp : Warp}
    (member : warp ∈ candidates warps active) :
    HasReady warps warp.warpId := by
  rw [candidates, List.mem_insertionSort, List.mem_filter] at member
  simp only [Bool.and_eq_true, beq_iff_eq] at member
  exact ⟨warp, member.1, rfl, member.2.2⟩

/-- With room in the active set, some ready warp becomes active. -/
theorem exists_active_of_room
    {scheduler : TwoLevelScheduler}
    {warps : List Warp}
    {warp : Warp}
    (room :
      (scheduler.pruned warps).length < scheduler.activeSetSize)
    (member : warp ∈ warps)
    (ready : warp.state = .ready) :
    ∃ id ∈ (scheduler.updateActiveSet warps).activeWarpIds,
      HasReady warps id := by
  have updated :
      (scheduler.updateActiveSet warps).activeWarpIds =
        scheduler.pruned warps ++
          ((candidates warps (scheduler.pruned warps)).take
            (scheduler.activeSetSize -
              (scheduler.pruned warps).length)).map Warp.warpId := by
    unfold updateActiveSet
    exact congrArg activeWarpIds (if_pos room)
  rw [updated]
  by_cases active : warp.warpId ∈ scheduler.pruned warps
  · exact
      ⟨warp.warpId, List.mem_append_left _ active,
        warp, member, rfl, ready⟩
  have isCandidate : warp ∈ candidates warps (scheduler.pruned warps) := by
    rw [candidates, List.mem_insertionSort, List.mem_filter]
    simp [member, active, ready]
  obtain ⟨first, rest, shape⟩ :=
    List.exists_cons_of_ne_nil (List.ne_nil_of_mem isCandidate)
  obtain ⟨extra, isExtra⟩ := Nat.exists_eq_add_of_lt room
  have taken :
      scheduler.activeSetSize - (scheduler.pruned warps).length =
        extra + 1 := by
    omega
  refine ⟨first.warpId, List.mem_append_right _ ?_, ?_⟩
  · rw [taken, shape, List.take_succ_cons, List.map_cons]
    exact List.mem_cons_self
  · have isFirst : first ∈ candidates warps (scheduler.pruned warps) := by
      rw [shape]
      exact List.mem_cons_self
    exact hasReady_of_candidate isFirst

/-- Given a ready warp, the policy selects unless it is saturated. -/
theorem selectWarp_isSome_iff_not_saturated
    {scheduler : TwoLevelScheduler}
    {warps : List Warp}
    {index : Nat}
    (ready : ReadyAt warps index) :
    (scheduler.selectWarp warps).1.isSome = true ↔
      ¬ scheduler.Saturated warps := by
  obtain ⟨warp, found, isReady⟩ := ready
  rw [selectWarp_isSome_iff]
  by_cases room :
    (scheduler.pruned warps).length < scheduler.activeSetSize
  · have active :=
      exists_active_of_room room (List.mem_of_getElem? found) isReady
    exact iff_of_true active fun full => Nat.not_le.mpr room full.1
  · have updated :
        (scheduler.updateActiveSet warps).activeWarpIds =
          scheduler.pruned warps := by
      unfold updateActiveSet
      exact congrArg activeWarpIds (if_neg room)
    rw [updated, Saturated]
    constructor
    · rintro ⟨id, member, hasReady⟩ full
      exact full.2 id member hasReady
    · intro notFull
      by_contra none
      exact
        notFull
          ⟨Nat.not_lt.mp room, fun id member hasReady =>
            none ⟨id, member, hasReady⟩⟩

end TwoLevelScheduler

/-! ## All policies -/

namespace Scheduler

/-- A scheduler that can select: a two-level one needs room for a warp. -/
def Usable : Scheduler → Prop
  | .twoLevel policy => 1 ≤ policy.activeSetSize
  | _ => True

/-- The blind spot of a policy, given that some warp is ready. -/
def Blocked (scheduler : Scheduler) (warps : List Warp) : Prop :=
  match scheduler with
  | .twoLevel policy => policy.Saturated warps
  | .priority _ =>
      ∀ warp ∈ warps,
        warp.state = .ready →
        warp.priority ≤ PriorityScheduler.lowest
  | .roundRobin _ | .greedy | .oldestFirst | .gto _ => False

/-- Given a ready warp, a policy selects unless it is blocked. -/
theorem selectWarp_isSome_iff
    {scheduler : Scheduler}
    {warps : List Warp}
    {index : Nat}
    (ready : ReadyAt warps index) :
    (scheduler.selectWarp warps).1.isSome = true ↔
      ¬ scheduler.Blocked warps := by
  cases scheduler with
  | roundRobin policy =>
      exact iff_of_true (policy.selectWarp_isSome ready) not_false
  | greedy =>
      exact
        iff_of_true (GreedyScheduler.selectWarp_isSome ready) not_false
  | priority policy =>
      rw [← Option.ne_none_iff_isSome]
      exact not_congr PriorityScheduler.selectWarp_eq_none_iff
  | oldestFirst =>
      exact iff_of_true (oldestReady_isSome ready) not_false
  | gto policy =>
      exact iff_of_true (policy.selectWarp_isSome ready) not_false
  | twoLevel policy =>
      exact TwoLevelScheduler.selectWarp_isSome_iff_not_saturated ready

/-- Every policy selects ready warps only. -/
theorem selectWarp_ready
    {scheduler : Scheduler}
    {warps : List Warp}
    {index : Nat}
    (selected : (scheduler.selectWarp warps).1 = some index) :
    ReadyAt warps index := by
  cases scheduler with
  | roundRobin policy =>
      exact RoundRobinScheduler.selectWarp_ready selected
  | greedy =>
      exact GreedyScheduler.selectWarp_ready selected
  | priority policy =>
      exact PriorityScheduler.selectWarp_ready selected
  | oldestFirst =>
      exact oldestReady_ready selected
  | gto policy =>
      exact GTOScheduler.selectWarp_ready selected
  | twoLevel policy =>
      exact TwoLevelScheduler.selectWarp_ready selected

instance : LawfulWarpScheduler Scheduler where
  selected_ready := selectWarp_ready

end Scheduler

end SimSm
