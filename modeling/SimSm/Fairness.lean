import SimSm.Library.Rotation
import SimSm.Policies

namespace SimSm

/-!
# Fairness of the rotating policies

Round robin serves the ready warps in rotation, the priority policy those of
the highest priority.  Bounded waiting follows from the rotation.
-/

open Rotation

namespace Fairness

/-- The selections of consecutive calls of a policy. -/
def selections {σ : Type}
    (select : σ → List Warp → Option Nat × σ) :
    σ → List (List Warp) → List (Option Nat)
  | _, [] => []
  | scheduler, warps :: rest =>
      (select scheduler warps).1 ::
        selections select (select scheduler warps).2 rest

section Selections

variable {σ : Type}
variable {select : σ → List Warp → Option Nat × σ}
variable {pointer : σ → Nat}
variable {eligible : List Warp → Nat → Prop}
variable {size : Nat}
variable {calls : List (List Warp)}

/-- Calls that all serve are turns in a row. -/
theorem selections_turns
    (serves :
      ∀ (scheduler : σ),
        ∀ warps ∈ calls,
          ∃ served,
            (select scheduler warps).1 = some served ∧
              pointer (select scheduler warps).2 = (served + 1) % size ∧
              Serves size (eligible warps) (pointer scheduler) served)
    (scheduler : σ) :
    ∃ turns : List ((Nat → Prop) × Nat),
      turns.map Prod.fst = calls.map eligible ∧
        selections select scheduler calls =
          turns.map (fun turn => some turn.2) ∧
        Turns size (pointer scheduler) turns := by
  induction calls generalizing scheduler with
  | nil => exact ⟨[], rfl, rfl, .nil _⟩
  | cons warps rest inductionHypothesis =>
      obtain ⟨served, selected, next, turn⟩ :=
        serves scheduler warps List.mem_cons_self
      obtain ⟨turns, sameEligible, samePicks, inRow⟩ :=
        inductionHypothesis
          (fun scheduler warps member =>
            serves scheduler warps (List.mem_cons_of_mem _ member))
          (select scheduler warps).2
      rw [next] at inRow
      refine
        ⟨(eligible warps, served) :: turns, ?_, ?_, .cons turn inRow⟩
      · rw [List.map_cons, List.map_cons, sameEligible]
      · rw [selections, selected, samePicks, List.map_cons]

/-- Every selection is that of some call. -/
theorem selections_mem
    {scheduler : σ}
    {pick : Option Nat}
    (member : pick ∈ selections select scheduler calls) :
    ∃ state, ∃ warps ∈ calls, (select state warps).1 = pick := by
  induction calls generalizing scheduler with
  | nil => cases member
  | cons warps rest inductionHypothesis =>
      rcases List.mem_cons.mp member with rfl | later
      · exact ⟨scheduler, warps, List.mem_cons_self, rfl⟩
      · obtain ⟨state, others, isCall, picked⟩ := inductionHypothesis later
        exact ⟨state, others, List.mem_cons_of_mem _ isCall, picked⟩

theorem selections_length
    (scheduler : σ) :
    (selections select scheduler calls).length = calls.length := by
  induction calls generalizing scheduler with
  | nil => rfl
  | cons warps rest inductionHypothesis =>
      rw [selections, List.length_cons, List.length_cons,
        inductionHypothesis]

/-- What every call ensures of its selection holds of each selection. -/
theorem selections_each
    {ensures : List Warp → Option Nat → Prop}
    (ensured :
      ∀ (scheduler : σ),
        ∀ warps ∈ calls, ensures warps (select scheduler warps).1)
    (scheduler : σ) :
    List.Forall₂ ensures calls (selections select scheduler calls) := by
  induction calls generalizing scheduler with
  | nil => exact .nil
  | cons warps rest inductionHypothesis =>
      refine
        .cons (ensured scheduler warps List.mem_cons_self)
          (inductionHypothesis (fun scheduler warps member => ?_) _)
      exact ensured scheduler warps (List.mem_cons_of_mem _ member)

section Turns

variable {turns : List ((Nat → Prop) × Nat)}
variable {scheduler : σ}
variable {position : Nat}

/-- What is eligible at every call is eligible at every turn. -/
theorem eligible_turns
    (sameEligible : turns.map Prod.fst = calls.map eligible)
    (always : ∀ warps ∈ calls, eligible warps position) :
    ∀ turn ∈ turns, turn.1 position := by
  intro turn member
  have isEligible : turn.1 ∈ turns.map Prod.fst :=
    List.mem_map_of_mem member
  rw [sameEligible, List.mem_map] at isEligible
  obtain ⟨warps, isCall, same⟩ := isEligible
  rw [← same]
  exact always warps isCall

/-- A position that is eligible at `size` calls or more is selected. -/
theorem selections_served
    (sameEligible : turns.map Prod.fst = calls.map eligible)
    (samePicks :
      selections select scheduler calls =
        turns.map (fun turn => some turn.2))
    (inRow : Turns size (pointer scheduler) turns)
    (inside : position < size)
    (always : ∀ warps ∈ calls, eligible warps position)
    (enough : size ≤ calls.length) :
    some position ∈ selections select scheduler calls := by
  have asMany : turns.length = calls.length := by
    have sameLength := congrArg List.length sameEligible
    rwa [List.length_map, List.length_map] at sameLength
  have served :=
    inRow.served inside (eligible_turns sameEligible always)
      (asMany ▸ enough)
  obtain ⟨turn, member, isPosition⟩ := List.mem_map.mp served
  rw [samePicks, List.mem_map]
  exact ⟨turn, member, congrArg some isPosition⟩

/-- Between two selections of it, nobody is selected twice. -/
theorem selections_between
    {earlier between later : List (Option Nat)}
    (sameEligible : turns.map Prod.fst = calls.map eligible)
    (samePicks :
      selections select scheduler calls =
        turns.map (fun turn => some turn.2))
    (inRow : Turns size (pointer scheduler) turns)
    (inside : position < size)
    (always : ∀ warps ∈ calls, eligible warps position)
    (split :
      selections select scheduler calls = earlier ++ (between ++ later))
    (notBetween : some position ∉ between) :
    between.Nodup := by
  rw [samePicks] at split
  obtain ⟨first, rest, rfl, rfl, restSplit⟩ := List.map_eq_append_iff.mp split
  obtain ⟨middle, last, rfl, rfl, rfl⟩ :=
    List.map_eq_append_iff.mp restSplit
  have waits : position ∉ middle.map Prod.snd := by
    intro served
    obtain ⟨turn, member, isPosition⟩ := List.mem_map.mp served
    exact
      notBetween
        (List.mem_map.mpr ⟨turn, member, congrArg some isPosition⟩)
  have once :=
    inRow.between inside
      (fun turn member =>
        eligible_turns sameEligible always turn
          (List.mem_append_right _ (List.mem_append_left _ member)))
      waits
  have mapped := once.map (Option.some_injective _)
  rwa [List.map_map] at mapped

end Turns

end Selections

/-! ## Round robin -/

/-- With a ready warp, round robin serves the nearest ready one. -/
theorem roundRobin_serves
    {scheduler : RoundRobinScheduler}
    {warps : List Warp}
    {index : Nat}
    (ready : ReadyAt warps index) :
    ∃ served,
      scheduler.selectWarp warps =
          (some served, ⟨(served + 1) % warps.length⟩) ∧
        Serves warps.length (ReadyAt warps) scheduler.nextWarpIndex
          served := by
  obtain ⟨warp, found, isReady⟩ := ready
  have inside := (List.getElem?_eq_some_iff.mp found).1
  have some :=
    scheduler.selectWarp_isSome ⟨warp, found, isReady⟩
  unfold RoundRobinScheduler.selectWarp at some ⊢
  dsimp only at some ⊢
  split at some
  · cases some
  · rename_i offset first
    obtain ⟨passes, offsetInside, notBefore⟩ :=
      List.find?_range_eq_some.mp first
    have offsetBound := List.mem_range.mp offsetInside
    refine ⟨_, rfl, Nat.mod_lt _ (Nat.zero_lt_of_lt inside),
      readyAt_iff.mp passes, fun other otherInside otherReady => ?_⟩
    rw [ahead_add offsetBound]
    by_contra nearer
    have notReady := notBefore _ (Nat.not_le.mp nearer)
    rw [add_ahead otherInside, readyAt_iff.mpr otherReady] at notReady
    cases notReady

/-- The selections of consecutive round robin calls. -/
def roundRobinSelections
    (scheduler : RoundRobinScheduler)
    (calls : List (List Warp)) :
    List (Option Nat) :=
  selections RoundRobinScheduler.selectWarp scheduler calls

/--
While a warp stays ready, every call returns a ready warp, `size` calls in a
row select it at least once, and nobody else is selected twice between two of
its selections.
-/
theorem roundRobin_bounded_waiting
    (scheduler : RoundRobinScheduler)
    {size position : Nat}
    {calls : List (List Warp)}
    (lengths : ∀ warps ∈ calls, warps.length = size)
    (ready : ∀ warps ∈ calls, ReadyAt warps position) :
    List.Forall₂
        (fun warps pick => ∃ index, pick = some index ∧ ReadyAt warps index)
        calls (roundRobinSelections scheduler calls) ∧
      (0 < size →
        size ≤ calls.length →
        some position ∈ roundRobinSelections scheduler calls) ∧
      ∀ earlier between later,
        roundRobinSelections scheduler calls =
          earlier ++
            (some position :: (between ++ (some position :: later))) →
        some position ∉ between →
        between.Nodup := by
  have serves
      (scheduler : RoundRobinScheduler)
      (warps : List Warp)
      (member : warps ∈ calls) :
      ∃ served,
        (scheduler.selectWarp warps).1 = some served ∧
          (scheduler.selectWarp warps).2.nextWarpIndex =
            (served + 1) % size ∧
          Serves size (ReadyAt warps) scheduler.nextWarpIndex served := by
    obtain ⟨served, selected, turn⟩ :=
      @roundRobin_serves scheduler _ _ (ready warps member)
    rw [selected]
    rw [lengths warps member] at turn ⊢
    exact ⟨served, rfl, rfl, turn⟩
  obtain ⟨turns, sameEligible, samePicks, inRow⟩ :=
    selections_turns serves scheduler
  have inside
      (some : 0 < calls.length) :
      position < size := by
    obtain ⟨warps, member⟩ := List.exists_mem_of_length_pos some
    obtain ⟨warp, found, _⟩ := ready warps member
    rw [← lengths warps member]
    exact (List.getElem?_eq_some_iff.mp found).1
  refine ⟨?_, ?_, ?_⟩
  · refine selections_each (fun scheduler warps member => ?_) scheduler
    obtain ⟨served, selected, _, turn⟩ := serves scheduler warps member
    exact ⟨served, selected, turn.isEligible⟩
  · intro positive enough
    exact
      selections_served sameEligible samePicks inRow
        (inside (Nat.lt_of_lt_of_le positive enough)) ready enough
  · intro earlier between later split notBetween
    have some : 0 < calls.length := by
      have asMany := congrArg List.length split
      rw [roundRobinSelections, selections_length, List.length_append,
        List.length_cons] at asMany
      omega
    rw [← List.singleton_append, ← List.append_assoc] at split
    exact
      selections_between sameEligible samePicks inRow (inside some) ready
        split notBetween

/-- Warps of the given states, with ids in order and priority zero. -/
def warpsIn (states : List WarpState) : List Warp :=
  states.zipIdx.map fun (state, warpId) =>
    { Warp.ofThreads warpId [] with state := state }

/-- A pointer out of range and a neighbour that comes and goes. -/
theorem roundRobin_bounded_waiting_two :
    some 1 ∈
      roundRobinSelections ⟨7⟩
        [warpsIn [.ready, .ready], warpsIn [.stalled, .ready]] :=
  (@roundRobin_bounded_waiting ⟨7⟩ 2 1
      [warpsIn [.ready, .ready], warpsIn [.stalled, .ready]]
      (by decide)
      (by
        intro warps member
        rw [← readyAt_iff]
        revert warps
        decide)).2.1
    (by decide) (by decide)

/-! ## Priority -/

/-- There is a ready warp of some priority at a position. -/
def ReadyWith (warps : List Warp) (index : Nat) (priority : Int) : Prop :=
  ∃ warp,
    warps[index]? = some warp ∧
      warp.state = .ready ∧
      warp.priority = priority

/-- A position has one warp, so one priority. -/
theorem ReadyWith.unique
    {warps : List Warp}
    {index : Nat}
    {priority other : Int}
    (left : ReadyWith warps index priority)
    (right : ReadyWith warps index other) :
    priority = other := by
  obtain ⟨warp, found, _, rfl⟩ := left
  obtain ⟨same, sameFound, _, rfl⟩ := right
  rw [found] at sameFound
  cases sameFound
  rfl

theorem ReadyWith.inside
    {warps : List Warp}
    {index : Nat}
    {priority : Int}
    (ready : ReadyWith warps index priority) :
    index < warps.length := by
  obtain ⟨warp, found, _⟩ := ready
  exact (List.getElem?_eq_some_iff.mp found).1

/-- A ready warp of maximal priority among the ready ones. -/
def TopAt (warps : List Warp) (index : Nat) : Prop :=
  ∃ priority,
    ReadyWith warps index priority ∧
      ∀ other rival, ReadyWith warps other rival → rival ≤ priority

/--
The scan over the first positions from a pointer holds the highest priority
above the lowest so far and the first position that has it.
-/
structure Scanned
    (warps : List Warp)
    (start count : Nat)
    (best : Option Nat × Int) :
    Prop where
  bar :
    ∀ offset < count,
      ∀ priority,
        ReadyWith warps ((start + offset) % warps.length) priority →
        priority ≤ best.2
  unset : best.1 = none → best.2 = PriorityScheduler.lowest
  first :
    ∀ index,
      best.1 = some index →
      PriorityScheduler.lowest < best.2 ∧
        ReadyWith warps index best.2 ∧
        ∃ offset < count,
          index = (start + offset) % warps.length ∧
            ∀ other < offset,
              ∀ priority,
                ReadyWith warps ((start + other) % warps.length) priority →
                priority < best.2

/-- No bar is below the lowest priority. -/
theorem Scanned.lowest_le
    {warps : List Warp}
    {start count : Nat}
    {best : Option Nat × Int}
    (scanned : Scanned warps start count best) :
    PriorityScheduler.lowest ≤ best.2 := by
  cases shape : best.1 with
  | none => exact le_of_eq (scanned.unset shape).symm
  | some index => exact le_of_lt (scanned.first index shape).1

/-- Scanning one more position keeps the first of the highest ones. -/
theorem Scanned.consider
    {warps : List Warp}
    {start count : Nat}
    {best : Option Nat × Int}
    (scanned : Scanned warps start count best) :
    Scanned warps start (count + 1)
      (PriorityScheduler.consider warps best
        ((start + count) % warps.length)) := by
  -- Where the position does not beat the bar, the scan is as before.
  have kept
      (notAbove :
        ∀ priority,
          ReadyWith warps ((start + count) % warps.length) priority →
          priority ≤ best.2) :
      Scanned warps start (count + 1) best := by
    refine ⟨fun offset inside priority isReady => ?_, scanned.unset, ?_⟩
    · rcases Nat.lt_succ_iff_lt_or_eq.mp inside with earlier | rfl
      · exact scanned.bar offset earlier priority isReady
      · exact notAbove priority isReady
    · intro index isBest
      obtain ⟨above, isReady, offset, inside, isFirst⟩ :=
        scanned.first index isBest
      exact ⟨above, isReady, offset, Nat.lt_succ_of_lt inside, isFirst⟩
  unfold PriorityScheduler.consider
  split
  · rename_i absent
    refine kept fun priority isReady => ?_
    obtain ⟨warp, found, _⟩ := isReady
    rw [absent] at found
    cases found
  · rename_i warp found
    split
    · rename_i better
      obtain ⟨isReady, above⟩ := better
      have here :
          ReadyWith warps ((start + count) % warps.length)
            warp.priority :=
        ⟨warp, found, isReady, rfl⟩
      refine ⟨fun offset inside priority ready => ?_, nofun, ?_⟩
      · rcases Nat.lt_succ_iff_lt_or_eq.mp inside with earlier | rfl
        · have bounded := scanned.bar offset earlier priority ready
          exact le_of_lt (lt_of_le_of_lt bounded above)
        · exact le_of_eq (ready.unique here)
      · rintro index ⟨⟩
        refine
          ⟨lt_of_le_of_lt scanned.lowest_le above, here, count,
            Nat.lt_succ_self count, rfl, fun other earlier priority ready => ?_⟩
        exact lt_of_le_of_lt (scanned.bar other earlier priority ready) above
    · rename_i notBetter
      refine kept fun priority isReady => ?_
      obtain ⟨same, sameFound, ready, rfl⟩ := isReady
      rw [found] at sameFound
      cases sameFound
      exact not_lt.mp fun above => notBetter ⟨ready, above⟩

/-- So the whole scan holds the first of the highest ones. -/
theorem scanned
    (warps : List Warp)
    (start count : Nat) :
    Scanned warps start count
      (((List.range count).map fun i => (start + i) % warps.length).foldl
        (PriorityScheduler.consider warps)
        (none, PriorityScheduler.lowest)) := by
  induction count with
  | zero => exact ⟨nofun, fun _ => rfl, nofun⟩
  | succ count inductionHypothesis =>
      rw [List.range_succ, List.map_append, List.foldl_append]
      exact inductionHypothesis.consider

/-- What the policy selects is the first warp of maximal priority. -/
theorem priority_serves
    {scheduler : PriorityScheduler}
    {warps : List Warp}
    {served : Nat}
    (selected : (scheduler.selectWarp warps).1 = some served) :
    (scheduler.selectWarp warps).2.nextWarpIndex =
        (served + 1) % warps.length ∧
      Serves warps.length (TopAt warps) scheduler.nextWarpIndex served := by
  have scan := scanned warps scheduler.nextWarpIndex warps.length
  unfold PriorityScheduler.selectWarp at selected ⊢
  dsimp only at selected ⊢
  split at selected
  · cases selected
  · rename_i best isBest
    cases selected
    obtain ⟨above, isReady, offset, inside, rfl, isFirst⟩ :=
      scan.first served isBest
    have top
        {other : Nat}
        {rival : Int}
        (otherReady : ReadyWith warps other rival) :
        rival ≤ (List.foldl (PriorityScheduler.consider warps)
          (none, PriorityScheduler.lowest)
          ((List.range warps.length).map fun i =>
            (scheduler.nextWarpIndex + i) % warps.length)).2 := by
      have otherInside := otherReady.inside
      rw [← @add_ahead _ scheduler.nextWarpIndex _ otherInside] at otherReady
      exact scan.bar _ (ahead_lt (Nat.zero_lt_of_lt inside)) _ otherReady
    refine
      ⟨rfl, Nat.mod_lt _ (Nat.zero_lt_of_lt inside),
        ⟨_, isReady, fun other rival => top⟩,
        fun other otherInside otherTop => ?_⟩
    rw [ahead_add inside]
    obtain ⟨priority, otherReady, highest⟩ := otherTop
    by_contra nearer
    rw [← @add_ahead _ scheduler.nextWarpIndex _ otherInside] at otherReady
    have lower :=
      isFirst _ (Nat.not_le.mp nearer) priority otherReady
    exact not_lt.mpr (highest _ _ isReady) lower

/-- Some ready warp has a priority that the scan can tell from none. -/
def Visible (warps : List Warp) : Prop :=
  (∃ index, ReadyAt warps index) →
    ∃ index priority,
      ReadyWith warps index priority ∧
        PriorityScheduler.lowest < priority

/-- What one call of the priority policy is to ensure. -/
def Chooses
    (scheduler : PriorityScheduler)
    (warps : List Warp) :
    Prop :=
  ((scheduler.selectWarp warps).1 = none ↔
      ∀ index, ¬ ReadyAt warps index) ∧
    ∀ index,
      (scheduler.selectWarp warps).1 = some index →
      Serves warps.length (TopAt warps) scheduler.nextWarpIndex index

/-- One call ensures it exactly when it can see a ready warp. -/
theorem chooses_iff
    {scheduler : PriorityScheduler}
    {warps : List Warp} :
    Chooses scheduler warps ↔ Visible warps := by
  have blind := @PriorityScheduler.selectWarp_eq_none_iff scheduler warps
  constructor
  · rintro ⟨noneIff, _⟩ ⟨index, ready⟩
    by_contra unseen
    have low :
        ∀ warp ∈ warps,
          warp.state = .ready → warp.priority ≤ PriorityScheduler.lowest := by
      intro warp member isReady
      obtain ⟨place, found⟩ := List.mem_iff_getElem?.mp member
      by_contra above
      exact
        unseen
          ⟨place, warp.priority, ⟨warp, found, isReady, rfl⟩,
            not_le.mp above⟩
    exact noneIff.mp (blind.mpr low) index ready
  · intro visible
    refine ⟨⟨fun none index ready => ?_, fun noReady => ?_⟩, ?_⟩
    · obtain ⟨place, priority, isReady, above⟩ := visible ⟨index, ready⟩
      obtain ⟨warp, found, state, rfl⟩ := isReady
      have low := blind.mp none warp (List.mem_of_getElem? found) state
      exact not_le.mpr above low
    · refine blind.mpr fun warp member isReady => ?_
      obtain ⟨index, ready⟩ := exists_readyAt member isReady
      exact (noReady index ready).elim
    · exact fun index selected => (priority_serves selected).2

/-- The selections of consecutive calls of the priority policy. -/
def prioritySelections
    (scheduler : PriorityScheduler)
    (calls : List (List Warp)) :
    List (Option Nat) :=
  selections PriorityScheduler.selectWarp scheduler calls

/--
As many calls as there are warps, with unchanged priorities and a warp that is
ready at each of them with a priority not below any other's.
-/
structure Window
    (calls : List (List Warp))
    (position : Nat) :
    Prop where
  someCall : 0 < calls.length
  lengths : ∀ warps ∈ calls, warps.length = calls.length
  unchanged :
    ∀ warps ∈ calls,
      ∀ others ∈ calls,
        warps.map Warp.priority = others.map Warp.priority
  ready : ∀ warps ∈ calls, ReadyAt warps position
  highest :
    ∀ warps ∈ calls,
      ∀ warp,
        warps[position]? = some warp →
        ∀ other ∈ warps, other.priority ≤ warp.priority

namespace Window

variable {calls : List (List Warp)}
variable {position : Nat}

theorem inside
    (window : Window calls position) :
    position < calls.length := by
  obtain ⟨warps, member⟩ := List.exists_mem_of_length_pos window.someCall
  obtain ⟨warp, found, _⟩ := window.ready warps member
  rw [← window.lengths warps member]
  exact (List.getElem?_eq_some_iff.mp found).1

theorem topAt
    (window : Window calls position)
    {warps : List Warp}
    (member : warps ∈ calls) :
    TopAt warps position := by
  obtain ⟨warp, found, ready⟩ := window.ready warps member
  refine ⟨warp.priority, ⟨warp, found, ready, rfl⟩, fun other rival => ?_⟩
  rintro ⟨otherWarp, otherFound, _, rfl⟩
  exact
    window.highest warps member warp found otherWarp
      (List.mem_of_getElem? otherFound)

/-- A call that sees some warp tells that every call of the window does. -/
theorem visible
    (window : Window calls position)
    {warps : List Warp}
    (member : warps ∈ calls)
    {index : Nat}
    {priority : Int}
    (isReady : ReadyWith warps index priority)
    (above : PriorityScheduler.lowest < priority) :
    ∀ others ∈ calls, Visible others := by
  intro others isCall _
  obtain ⟨warp, found, ready⟩ := window.ready others isCall
  refine ⟨position, warp.priority, ⟨warp, found, ready, rfl⟩, ?_⟩
  obtain ⟨top, topReady, highest⟩ := window.topAt member
  have samePriority : warp.priority = top := by
    obtain ⟨here, hereFound, _, rfl⟩ := topReady
    have same :=
      congrArg (fun priorities => priorities[position]?)
        (window.unchanged others isCall warps member)
    rw [List.getElem?_map, List.getElem?_map, found, hereFound] at same
    exact Option.some.inj same
  rw [samePriority]
  exact lt_of_lt_of_le above (highest index priority isReady)

end Window

/-- In a window the warp is selected exactly when the calls can see it. -/
theorem window_selected_iff
    {scheduler : PriorityScheduler}
    {calls : List (List Warp)}
    {position : Nat}
    (window : Window calls position) :
    some position ∈ prioritySelections scheduler calls ↔
      ∀ warps ∈ calls, Visible warps := by
  constructor
  · intro selected
    obtain ⟨state, warps, member, picked⟩ := selections_mem selected
    have chosen : ¬ (state.selectWarp warps).1 = none := by
      rw [picked]
      exact Option.some_ne_none position
    rw [PriorityScheduler.selectWarp_eq_none_iff] at chosen
    push Not at chosen
    obtain ⟨warp, isWarp, ready, above⟩ := chosen
    obtain ⟨index, found⟩ := List.mem_iff_getElem?.mp isWarp
    exact window.visible member ⟨warp, found, ready, rfl⟩ above
  · intro visible
    have serves
        (scheduler : PriorityScheduler)
        (warps : List Warp)
        (member : warps ∈ calls) :
        ∃ served,
          (scheduler.selectWarp warps).1 = some served ∧
            (scheduler.selectWarp warps).2.nextWarpIndex =
              (served + 1) % calls.length ∧
            Serves calls.length (TopAt warps) scheduler.nextWarpIndex
              served := by
      have notNone : (scheduler.selectWarp warps).1 ≠ none := by
        intro none
        have chooses : Chooses scheduler warps :=
          chooses_iff.mpr (visible warps member)
        exact
          chooses.1.mp none position (window.ready warps member)
      obtain ⟨served, selected⟩ := Option.ne_none_iff_exists'.mp notNone
      have serves := priority_serves selected
      rw [window.lengths warps member] at serves
      exact ⟨served, selected, serves⟩
    obtain ⟨turns, sameEligible, samePicks, inRow⟩ :=
      selections_turns serves scheduler
    exact
      selections_served sameEligible samePicks inRow window.inside
        (fun warps member => window.topAt member) (Nat.le_refl _)

/--
A call is right exactly when it can tell some ready warp from none, and over a
window the warp gets its turn exactly when every call can.
-/
theorem priority_selects_iff
    (scheduler : PriorityScheduler)
    (warps : List Warp)
    (calls : List (List Warp)) :
    (Chooses scheduler warps ↔ Visible warps) ∧
      ∀ position,
        Window calls position →
        (some position ∈ prioritySelections scheduler calls ↔
          ∀ warps ∈ calls, Visible warps) :=
  ⟨chooses_iff, fun _ window => window_selected_iff window⟩

/-- Of two warps of one priority the second one gets its turn in two calls. -/
theorem priority_selects_iff_pair :
    some 1 ∈
      prioritySelections ⟨0⟩
        [warpsIn [.ready, .ready], warpsIn [.ready, .ready]] := by
  have window :
      Window [warpsIn [.ready, .ready], warpsIn [.ready, .ready]] 1 := by
    refine ⟨by decide, by decide, by decide, ?_, ?_⟩
    · intro warps member
      rw [← readyAt_iff]
      revert warps
      decide
    · intro warps member warp found other isOther
      have even :
          ∀ warps ∈ [warpsIn [.ready, .ready], warpsIn [.ready, .ready]],
            ∀ warp ∈ warps, warp.priority = 0 := by
        decide
      rw [even warps member other isOther,
        even warps member warp (List.mem_of_getElem? found)]
  refine
    ((priority_selects_iff ⟨0⟩ [] _).2 1 window).mpr fun warps member _ => ?_
  have first :
      ∀ warps ∈ [warpsIn [.ready, .ready], warpsIn [.ready, .ready]],
        warps.head?.map
            (fun warp => (warp.state, warp.priority)) =
          some (.ready, 0) := by
    decide
  obtain ⟨warp, isFirst, ready⟩ :=
    Option.map_eq_some_iff.mp (first warps member)
  refine ⟨0, 0, ⟨warp, ?_, ?_, ?_⟩, by decide⟩
  · rw [← List.head?_eq_getElem?, isFirst]
  · exact congrArg Prod.fst ready
  · exact congrArg Prod.snd ready

/-- A ready warp of the lowest priority, alone, is never selected. -/
theorem priority_ignores_lowest :
    ∃ warps,
      ReadyAt warps 0 ∧
        ((⟨0⟩ : PriorityScheduler).selectWarp warps).1 = none := by
  refine
    ⟨[{ Warp.ofThreads 0 [] with priority := PriorityScheduler.lowest }],
      readyAt_iff.mp ?_, ?_⟩
  · decide
  · decide

end Fairness

end SimSm
