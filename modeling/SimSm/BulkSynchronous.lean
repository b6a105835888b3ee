import SimSm.LaneMemory
import SimSm.RaceFreedom

namespace SimSm

/-!
# Blocks that run from barrier to barrier

Between two barriers the lanes of a block are agents that share the memory.
When the uses of the addresses are declared and kept, every lane does what it
would do alone, and the memory at the next barrier is what the lanes made of
it together.  A block that is correct phase by phase is correct in every run.
-/

open Interleaving Outcome GridState

/-- The lanes of the warps of a block, by position and lane. -/
def blockLanes (count : Nat) : Finset (Nat × Nat) :=
  Finset.range count ×ˢ Finset.range 32

/-- What each lane of a block finds in its own memory. -/
def ownMemory
    (count : Nat)
    (stand : Nat → OwnPaths)
    (initial : Nat → Word)
    (agent : Nat × Nat) :
    Nat → Word :=
  if agent.1 < count then
    ((stand agent.1).lanes[agent.2]?.map OwnLane.memory).getD initial
  else
    initial

theorem ownMemory_eq
    {count : Nat}
    {stand : Nat → OwnPaths}
    {initial : Nat → Word}
    {position lane : Nat}
    {own : OwnLane}
    (inside : position < count)
    (found : (stand position).lanes[lane]? = some own) :
    ownMemory count stand initial (position, lane) = own.memory := by
  simp [ownMemory, inside, found]

/-- Only the warps of the block matter. -/
theorem ownMemory_congr
    {count : Nat}
    {stand other : Nat → OwnPaths}
    (same : ∀ position < count, stand position = other position)
    (initial : Nat → Word) :
    ownMemory count stand initial = ownMemory count other initial := by
  funext agent
  unfold ownMemory
  split
  · rename_i inside
    rw [same agent.1 inside]
  · rfl

/-- Before any lane has moved, its own memory is the one they share. -/
theorem ownMemory_begin
    (count : Nat)
    (start : Nat → PathState)
    (initial : Nat → Word) :
    ownMemory count (fun position => .begin (start position) initial)
        initial =
      fun _ => initial := by
  funext agent
  rw [ownMemory, OwnPaths.begin]
  dsimp only
  rw [List.getElem?_map]
  split
  · cases (start agent.1).lanes[agent.2]? <;> rfl
  · rfl

/-- What one lane of a warp accesses. -/
def laneAccesses
    (inst : Instruction)
    (lanes : List OwnLane)
    (agent : Nat × Nat) :
    List (Access Nat Word) :=
  (lanes[agent.2]?.bind fun own => own.lane.access? inst).toList

/-- The active lanes of a warp as agents of its block. -/
def movingLanes (position : Nat) (own : OwnPaths) : List (Nat × Nat) :=
  (activeLanes own.current.mask 0 own.paths.lanes).map fun entry =>
    (position, entry.1)

/-- An active lane is one of the lanes with memories. -/
theorem of_activeLanes
    {own : OwnPaths}
    {entry : Nat × LaneState}
    (member :
      entry ∈ activeLanes own.current.mask 0 own.paths.lanes) :
    ∃ lane,
      own.lanes[entry.1]? = some lane ∧ lane.lane = entry.2 ∧
        own.current.mask.getLsbD entry.1 = true := by
  obtain ⟨place, number, found, active⟩ := mem_activeLanes.mp member
  rw [Nat.zero_add] at number
  rw [OwnPaths.paths, List.getElem?_map, ← number] at found
  obtain ⟨lane, isLane, same⟩ := Option.map_eq_some_iff.mp found
  exact ⟨lane, isLane, same, active⟩

theorem mem_movingLanes
    {position : Nat}
    {own : OwnPaths}
    {agent : Nat × Nat} :
    agent ∈ movingLanes position own ↔
      agent.1 = position ∧
        ∃ lane,
          own.lanes[agent.2]? = some lane ∧
            own.current.mask.getLsbD agent.2 = true := by
  obtain ⟨place, number⟩ := agent
  rw [movingLanes, List.mem_map]
  constructor
  · rintro ⟨entry, member, same⟩
    cases same
    obtain ⟨lane, found, _, active⟩ := of_activeLanes member
    exact ⟨rfl, lane, found, active⟩
  · rintro ⟨rfl, own, found, active⟩
    dsimp only at found active ⊢
    refine ⟨(number, own.lane), mem_activeLanes.mpr ?_, rfl⟩
    refine ⟨number, (Nat.zero_add number).symm, ?_, active⟩
    simp [OwnPaths.paths, found]

/-- The active lanes are numbered in order. -/
theorem activeLanes_sorted
    (mask : ActiveMask)
    (start : Nat)
    (lanes : List LaneState) :
    ((activeLanes mask start lanes).map Prod.fst).Pairwise (· < ·) := by
  induction lanes generalizing start with
  | nil => exact .nil
  | cons state rest inductionHypothesis =>
      rw [activeLanes]
      split
      · refine .cons ?_ (inductionHypothesis (start + 1))
        intro later member
        obtain ⟨entry, isEntry, rfl⟩ := List.mem_map.mp member
        obtain ⟨position, number, _⟩ := mem_activeLanes.mp isEntry
        omega
      · exact inductionHypothesis (start + 1)

theorem movingLanes_nodup
    (position : Nat)
    (own : OwnPaths) :
    (movingLanes position own).Nodup := by
  have distinct :
      ((activeLanes own.current.mask 0 own.paths.lanes).map
        Prod.fst).Nodup :=
    (activeLanes_sorted _ _ _).imp Nat.ne_of_lt
  have paired := distinct.map (Prod.mk_right_injective position)
  rwa [List.map_map] at paired

/-- The accesses of a warp are those of its active lanes. -/
theorem accesses_eq
    (inst : Instruction)
    (position : Nat)
    (own : OwnPaths) :
    own.paths.accesses inst =
      (movingLanes position own).flatMap (laneAccesses inst own.lanes) := by
  rw [PathState.accesses, List.filterMap_eq_flatMap_toList, movingLanes,
    List.flatMap_map]
  refine List.flatMap_congr fun entry member => ?_
  obtain ⟨lane, found, same, _⟩ := of_activeLanes member
  rw [laneAccesses, found, ← same]
  rfl

section Instruction

variable {kernel : Kernel}
variable {count position : Nat}
variable {use : Nat → Use (Nat × Nat)}
variable {scope : Nat → Prop}
variable {initial view : Nat → Word}
variable {stand : Nat → OwnPaths}
variable {inst : Instruction}
variable {after : OwnPaths}

/-- An active lane that executes performs its access on its own memory. -/
theorem ownMemory_moved
    (inside : position < count)
    (executed : (stand position).execute inst = some after)
    {agent : Nat × Nat}
    (member : agent ∈ movingLanes position (stand position)) :
    ownMemory count (Function.update stand position after) initial agent =
      applyAll (laneAccesses inst (stand position).lanes agent)
        (ownMemory count stand initial agent) := by
  obtain ⟨next, _, rfl⟩ := Option.map_eq_some_iff.mp executed
  obtain ⟨place, lane⟩ := agent
  obtain ⟨rfl, own, found, active⟩ := mem_movingLanes.mp member
  dsimp only at found active inside
  simp [ownMemory, inside, laneAccesses, found, active, OwnLane.execute]

/-- The other lanes of the block keep their memories. -/
theorem ownMemory_stayed
    (executed : (stand position).execute inst = some after)
    {agent : Nat × Nat}
    (outside : agent ∉ movingLanes position (stand position)) :
    ownMemory count (Function.update stand position after) initial agent =
      ownMemory count stand initial agent := by
  obtain ⟨next, _, rfl⟩ := Option.map_eq_some_iff.mp executed
  obtain ⟨place, lane⟩ := agent
  by_cases here : place = position
  · subst here
    simp only [ownMemory, Function.update_self, getElem?_onLanes]
    cases found : (stand place).lanes[lane]? with
    | none => rfl
    | some own =>
        have inactive :
            ¬ (stand place).current.mask.getLsbD lane = true := by
          intro active
          exact outside (mem_movingLanes.mpr ⟨rfl, own, found, active⟩)
        rw [Option.map_some, if_neg inactive]
  · simp only [ownMemory, Function.update_of_ne here]

/--
A warp that executes an instruction in the shared memory executes it as its
lanes do alone, and the lanes' memories still make up the shared one.
-/
theorem shares_execute
    (shares :
      Shares (blockLanes count) (Use.may use) scope initial
        (ownMemory count stand initial) view)
    (inside : position < count)
    (allowed :
      ∀ lane own,
        (stand position).lanes[lane]? = some own →
        (stand position).current.mask.getLsbD lane = true →
        ∀ access ∈ (own.lane.access? inst).toList,
          Allowed (Use.may use) scope (position, lane) access)
    (executed : (stand position).execute inst = some after) :
    (stand position).paths.executeWith inst view = some after.paths ∧
      Shares (blockLanes count) (Use.may use) scope initial
        (ownMemory count (Function.update stand position after) initial)
        (applyAll ((stand position).paths.accesses inst) view) := by
  constructor
  · obtain ⟨next, executes, rfl⟩ := Option.map_eq_some_iff.mp executed
    rw [PathState.executeWith, executes]
    simp only [Option.map_some, OwnPaths.paths, Option.some.injEq,
      PathState.mk.injEq, and_true]
    apply List.ext_getElem?
    intro lane
    simp only [getElem?_onMask, List.getElem?_map, getElem?_onLanes]
    cases found : (stand position).lanes[lane]? with
    | none => rfl
    | some own =>
        cases active : (stand position).current.mask.getLsbD lane with
        | false => simp
        | true =>
            simp only [Option.map_some, if_true, Option.some.injEq,
              OwnLane.execute, LaneState.executeWith]
            split
            · rename_i isLoad
              have permitted :=
                allowed lane own found active
                  (.load (own.lane.address inst.src1 inst))
                  (by simp [LaneState.access?, isLoad])
              have agree :=
                shares.loads_agree (Use.raceFree use scope) permitted.2
                  permitted.1
              rw [ownMemory_eq inside found] at agree
              exact congrArg _ agree
            · rfl
  · rw [accesses_eq inst position]
    refine
      shares.parallel (movingLanes_nodup _ _) ?_ ?_
        (fun agent member => ownMemory_moved inside executed member)
        fun agent outside => ownMemory_stayed executed outside
    · rintro ⟨place, lane⟩ member
      obtain ⟨rfl, _, _, active⟩ := mem_movingLanes.mp member
      exact
        Finset.mem_product.mpr
          ⟨Finset.mem_range.mpr inside,
            Finset.mem_range.mpr (BitVec.lt_of_getLsbD active)⟩
    · rintro ⟨place, lane⟩ member access performed
      obtain ⟨rfl, own, found, active⟩ := mem_movingLanes.mp member
      rw [laneAccesses, found] at performed
      exact allowed lane own found active access performed

end Instruction

/-! ## Where a warp stands -/

/-- A path inside the kernel is not the end of a run. -/
theorem PathState.ended_inside
    {size : Nat}
    {state : PathState}
    (inside : state.current.pc < size) :
    state.ended size = false := by
  rw [PathState.ended, decide_eq_false (Nat.not_le.mpr inside),
    Bool.false_and]

namespace OwnPaths

variable {kernel : Kernel}
variable {own before after : OwnPaths}

/-- The run of a warp that stands here. -/
def run (kernel : Kernel) (own : OwnPaths) : PathRun where
  paths := own.paths
  completed := own.paths.ended kernel.size

/-- The current path is inside the kernel, or no other path waits. -/
def Settled (kernel : Kernel) (own : OwnPaths) : Prop :=
  own.current.pc < kernel.size ∨ own.pending = []

theorem Settled.after_eq
    (settled : own.Settled kernel) :
    PathRun.after kernel own.paths = own.run kernel := by
  rw [PathRun.after, run, PathRun.mk.injEq]
  refine ⟨?_, rfl⟩
  unfold PathState.settle
  split
  · rename_i outside
    have none : own.paths.pending = [] :=
      settled.resolve_left (Nat.not_lt.mpr outside)
    rw [none]
  · rfl

theorem Step.inside
    (step : Step kernel before after) :
    before.current.pc < kernel.size := by
  obtain ⟨_, fetched, _⟩ := step
  exact Kernel.fetch?_lt fetched

theorem Step.notEnded
    (step : Step kernel before after) :
    (before.run kernel).completed = false :=
  PathState.ended_inside step.inside

/-- A path on the way to a settled end is settled. -/
theorem settled_of_reaches
    (reaches : Reaches kernel before after)
    (settled : after.Settled kernel) :
    before.Settled kernel := by
  cases reaches using Relation.ReflTransGen.head_induction_on with
  | refl => exact settled
  | head step _ _ => exact Or.inl step.inside

/-- What an instruction lets a lane touch stays among what it has touched. -/
theorem Step.touched
    (step : Step kernel before after)
    {lane : Nat}
    {own : OwnLane}
    (found : before.lanes[lane]? = some own) :
    ∃ later,
      after.lanes[lane]? = some later ∧ own.touched ⊆ later.touched := by
  obtain ⟨inst, _, _, executed⟩ := step
  obtain ⟨next, _, rfl⟩ := Option.map_eq_some_iff.mp executed
  rw [getElem?_onLanes, found]
  refine ⟨_, rfl, ?_⟩
  split
  · exact List.subset_append_left _ _
  · exact List.Subset.refl _

/-- What a lane has touched it has touched for good. -/
theorem touched_of_reaches
    (reaches : Reaches kernel before after)
    {lane : Nat}
    {own : OwnLane}
    (found : before.lanes[lane]? = some own) :
    ∃ later,
      after.lanes[lane]? = some later ∧ own.touched ⊆ later.touched := by
  induction reaches with
  | refl => exact ⟨own, found, List.Subset.refl _⟩
  | tail _ step inductionHypothesis =>
      obtain ⟨middle, isMiddle, earlier⟩ := inductionHypothesis
      obtain ⟨later, isLater, now⟩ := step.touched isMiddle
      exact ⟨later, isLater, fun _ member => now (earlier member)⟩

/-- A warp stands at a barrier after which the kernel goes on. -/
def Stops (kernel : Kernel) (own : OwnPaths) : Prop :=
  own.current.pc + 1 < kernel.size ∧
    ∃ inst,
      kernel.fetch? own.current.pc = some inst ∧ inst.opcode = .barrier

/-- The path machine past the barrier. -/
def past (own : OwnPaths) : PathState :=
  own.paths.goto (own.current.pc + 1)

theorem Stops.notEnded
    (stops : own.Stops kernel) :
    (own.run kernel).completed = false :=
  PathState.ended_inside (Nat.lt_of_succ_lt stops.1)

/-- A warp that stops arrives at its barrier. -/
theorem Stops.arrive
    (stops : own.Stops kernel) :
    (own.run kernel).arrive? kernel = some ⟨own.past, false⟩ := by
  have running := stops.notEnded
  obtain ⟨inside, inst, fetched, isBarrier⟩ := stops
  have next := Kernel.nextPc_eq (Kernel.fetch?_lt fetched)
  have nothing :
      LaneState.execute inst = fun lane : LaneState => lane := by
    funext lane
    simp only [LaneState.execute, isBarrier]
  have executes : own.paths.execute inst = some own.past := by
    unfold PathState.execute
    simp only [isBarrier, nothing, onMask_id]
    simp [past, PathState.goto, paths, next]
  have goesOn : own.past.ended kernel.size = false :=
    PathState.ended_inside inside
  have settles : own.past.settle kernel.size = own.past := by
    rw [PathState.settle, if_neg]
    simpa [past, PathState.goto] using inside
  have fetches :
      kernel.fetch? (own.run kernel).paths.current.pc = some inst :=
    fetched
  rw [PathRun.arrive?, running, fetches]
  dsimp only
  rw [if_neg Bool.false_ne_true, if_pos isBarrier]
  change
    ((own.paths.execute inst).map (PathRun.after kernel)).filter
        (fun next => !next.completed) =
      _
  rw [executes, Option.map_some, PathRun.after, goesOn, settles]
  rfl

/-- What a warp accesses on its way. -/
theorem accesses_of_step
    {inst : Instruction}
    (fetched : kernel.fetch? before.current.pc = some inst)
    (notBarrier : inst.opcode ≠ .barrier)
    (executed : before.execute inst = some after) :
    (before.run kernel).accesses? kernel =
      some (before.paths.accesses inst) := by
  obtain ⟨next, executes, _⟩ := Option.map_eq_some_iff.mp executed
  have running : (before.run kernel).completed = false :=
    PathState.ended_inside (Kernel.fetch?_lt fetched)
  have fetches :
      kernel.fetch? (before.run kernel).paths.current.pc = some inst :=
    fetched
  rw [PathRun.accesses?, running, fetches]
  dsimp only
  rw [if_neg Bool.false_ne_true, if_neg notBarrier]
  change (before.paths.execute inst).map _ = _
  rw [executes]
  rfl

/-- A warp whose lanes move as they would alone goes on along its way. -/
theorem nextWith_of_step
    {inst : Instruction}
    {view : Nat → Word}
    (fetched : kernel.fetch? before.current.pc = some inst)
    (moved : before.paths.executeWith inst view = some after.paths)
    (settled : after.Settled kernel) :
    (before.run kernel).nextWith kernel view = after.run kernel := by
  have fetches :
      kernel.fetch? (before.run kernel).paths.current.pc = some inst :=
    fetched
  rw [PathRun.nextWith, fetches]
  dsimp only
  change ((before.paths.executeWith inst view).map _).getD _ = _
  rw [moved, Option.map_some, Option.getD_some, settled.after_eq]

end OwnPaths

/-! ## Phases -/

section Phases

variable (kernel : Kernel)
variable (count : Nat)
variable (scope mine : Nat → Prop)
variable (goal : Nat → Word)

/--
A phase of a block: from a memory that they share, the warps reach where they
finish, each lane on its own memory, and keep to the declared uses.  What does
not belong to the block is only loaded.
-/
structure Phase
    (use : Nat → Use (Nat × Nat))
    (finish : Nat → OwnPaths) :
    Prop where
  allowed :
    ∀ position < count,
      ∀ lane own,
        (finish position).lanes[lane]? = some own →
        ∀ access ∈ own.touched,
          Allowed (Use.may use) scope (position, lane) access
  readsOthers :
    ∀ address, scope address → ¬ mine address → use address = .readOnly

/-- The memories that the lanes of a block make up together. -/
def Made
    (initial : Nat → Word)
    (use : Nat → Use (Nat × Nat))
    (stand : Nat → OwnPaths)
    (memory : Nat → Word) :
    Prop :=
  Shares (blockLanes count) (Use.may use) scope initial
    (ownMemory count stand initial) memory

/--
A block that is correct phase by phase: its warps finish with the goal in the
block's global cells, or they stop at a barrier past which the block is correct
from every memory that they may have made.
-/
inductive Bulk : (Nat → PathState) → (Nat → Word) → Prop where
  | ends
      {start : Nat → PathState}
      {initial : Nat → Word}
      {use : Nat → Use (Nat × Nat)}
      {finish : Nat → OwnPaths}
      (phase : Phase count scope mine use finish)
      (reaches :
        ∀ position < count,
          OwnPaths.Reaches kernel (.begin (start position) initial)
            (finish position))
      (ended :
        ∀ position < count,
          (finish position).paths.ended kernel.size = true)
      (result :
        ∀ memory,
          Made count scope initial use finish memory →
          ∀ address,
            IsGlobal address →
            mine address →
            memory address = goal address) :
      Bulk start initial
  | stops
      {start : Nat → PathState}
      {initial : Nat → Word}
      {use : Nat → Use (Nat × Nat)}
      {finish : Nat → OwnPaths}
      (phase : Phase count scope mine use finish)
      (reaches :
        ∀ position < count,
          OwnPaths.Reaches kernel (.begin (start position) initial)
            (finish position))
      (stops : ∀ position < count, (finish position).Stops kernel)
      (goesOn :
        ∀ memory,
          Made count scope initial use finish memory →
          Bulk (fun position => (finish position).past) memory) :
      Bulk start initial

/-- What follows a phase. -/
def Continues
    (initial : Nat → Word)
    (use : Nat → Use (Nat × Nat))
    (finish : Nat → OwnPaths) :
    Prop :=
  ((∀ position < count, (finish position).paths.ended kernel.size = true) ∧
      ∀ memory,
        Made count scope initial use finish memory →
        ∀ address,
          IsGlobal address → mine address → memory address = goal address) ∨
    (∀ position < count, (finish position).Stops kernel) ∧
      ∀ memory,
        Made count scope initial use finish memory →
        Bulk kernel count scope mine goal
          (fun position => (finish position).past) memory

/--
The warps of a block inside a phase: each of them stands on the way to where it
finishes the phase, or waits at the barrier there.
-/
structure Underway
    (initial : Nat → Word)
    (use : Nat → Use (Nat × Nat))
    (finish stand : Nat → OwnPaths)
    (warps : List Warp)
    (view : Nat → Word) :
    Prop where
  phase : Phase count scope mine use finish
  continues : Continues kernel count scope mine goal initial use finish
  along :
    ∀ position < count,
      OwnPaths.Reaches kernel (stand position) (finish position)
  made : Made count scope initial use stand view
  length : warps.length = count
  placed :
    ∀ (position : Nat) (warp : Warp),
      warps[position]? = some warp →
      warp.IsAt ((stand position).run kernel) ∧
          warp.state ≠ .stalledAtBarrier ∨
        stand position = finish position ∧
          warp.IsAt ⟨(finish position).past, false⟩ ∧
            warp.state = .stalledAtBarrier

end Phases

section Underway

variable {kernel : Kernel}
variable {count : Nat}
variable {scope mine : Nat → Prop}
variable {goal initial view : Nat → Word}
variable {use : Nat → Use (Nat × Nat)}
variable {finish stand : Nat → OwnPaths}
variable {warps : List Warp}
variable {position : Nat}
variable {warp : Warp}

/-- A block that is correct phase by phase is at the start of a phase. -/
theorem Bulk.underway
    {start : Nat → PathState}
    (bulk : Bulk kernel count scope mine goal start view)
    (inside : ∀ position < count, (start position).current.pc < kernel.size)
    (length : warps.length = count)
    (placed :
      ∀ (position : Nat) (warp : Warp),
        warps[position]? = some warp →
        warp.IsAt ⟨start position, false⟩ ∧
          warp.state ≠ .stalledAtBarrier) :
    ∃ use finish stand,
      Underway kernel count scope mine goal view use finish stand warps
        view := by
  have made (use : Nat → Use (Nat × Nat)) :
      Made count scope view use
        (fun position => .begin (start position) view) view := by
    rw [Made, ownMemory_begin]
    exact .atStart _ _ _ _
  have placedThere
      (position : Nat)
      (warp : Warp)
      (found : warps[position]? = some warp) :
      warp.IsAt ((OwnPaths.begin (start position) view).run kernel) ∧
        warp.state ≠ .stalledAtBarrier := by
    obtain ⟨isAt, running⟩ := placed position warp found
    have within := (List.getElem?_eq_some_iff.mp found).1
    rw [length] at within
    refine ⟨?_, running⟩
    rw [OwnPaths.run, OwnPaths.paths_begin,
      PathState.ended_inside (inside position within)]
    exact isAt
  cases bulk with
  | ends phase reaches ended result =>
      exact
        ⟨_, _, _, phase, Or.inl ⟨ended, result⟩, reaches, made _, length,
          fun position warp found =>
            Or.inl (placedThere position warp found)⟩
  | stops phase reaches stops goesOn =>
      exact
        ⟨_, _, _, phase, Or.inr ⟨stops, goesOn⟩, reaches, made _, length,
          fun position warp found =>
            Or.inl (placedThere position warp found)⟩

/-- Where the warps of a block finish a phase, nothing is left to settle. -/
theorem Continues.settled
    (continues : Continues kernel count scope mine goal initial use finish)
    (inside : position < count) :
    (finish position).Settled kernel := by
  rcases continues with ⟨ended, _⟩ | ⟨stops, _⟩
  · have atEnd := ended position inside
    rw [PathState.ended, Bool.and_eq_true] at atEnd
    exact Or.inr (List.isEmpty_iff.mp atEnd.2)
  · exact Or.inl (Nat.lt_of_succ_lt (stops position inside).1)

namespace Underway

/-- A memory that is the same in the block's scope is as good. -/
theorem frame
    {other : Nat → Word}
    (underway :
      Underway kernel count scope mine goal initial use finish stand warps
        view)
    (same : ∀ address, scope address → other address = view address) :
    Underway kernel count scope mine goal initial use finish stand warps
      other :=
  { underway with made := underway.made.frame same }

theorem inside
    (underway :
      Underway kernel count scope mine goal initial use finish stand warps
        view)
    (found : warps[position]? = some warp) :
    position < count := by
  rw [← underway.length]
  exact (List.getElem?_eq_some_iff.mp found).1

/-- A warp that does not wait at a barrier stands on its way. -/
theorem isAt
    (underway :
      Underway kernel count scope mine goal initial use finish stand warps
        view)
    (found : warps[position]? = some warp)
    (notWaiting : warp.state ≠ .stalledAtBarrier) :
    warp.IsAt ((stand position).run kernel) := by
  rcases underway.placed position warp found with
    ⟨isAt, _⟩ | ⟨_, _, waiting⟩
  · exact isAt
  · exact (notWaiting waiting).elim

/-- A warp that stands at a barrier has finished its phase. -/
theorem finished_of_atBarrier
    (underway :
      Underway kernel count scope mine goal initial use finish stand warps
        view)
    (inside : position < count)
    (atBarrier : ((stand position).run kernel).AtBarrier kernel) :
    stand position = finish position ∧
      ∀ position < count, (finish position).Stops kernel := by
  have finished : stand position = finish position := by
    rcases (underway.along position inside).cases_head with
      finished | ⟨_, ⟨inst, fetched, notBarrier, _⟩, _⟩
    · exact finished
    · obtain ⟨other, isFetched, isBarrier⟩ := atBarrier
      rw [show kernel.fetch? (stand position).current.pc = some other
        from isFetched] at fetched
      cases fetched
      exact (notBarrier isBarrier).elim
  refine ⟨finished, ?_⟩
  rcases underway.continues with ⟨ended, _⟩ | ⟨stops, _⟩
  · obtain ⟨other, isFetched, _⟩ := atBarrier
    have here := ended position inside
    rw [← finished] at here
    have goesOn := PathState.ended_inside (Kernel.fetch?_lt isFetched)
    exact absurd (here.symm.trans goesOn) (Bool.noConfusion)
  · exact stops

/-- One warp goes on along its way. -/
theorem goesOn
    (underway :
      Underway kernel count scope mine goal initial use finish stand warps
        view)
    (found : warps[position]? = some warp)
    (ready : warp.state = .ready)
    {performed : List (Access Nat Word)}
    {changed : Warp}
    (accesses :
      ((stand position).run kernel).accesses? kernel = some performed)
    (isAtNext :
      changed.IsAt (((stand position).run kernel).nextWith kernel view))
    (notWaiting : changed.state ≠ .stalledAtBarrier) :
    (∃ later,
      Underway kernel count scope mine goal initial use finish later
        (warps.set position changed) (applyAll performed view)) ∧
      ∀ access ∈ performed, ¬ mine access.address → access.kind = .load := by
  have inside := underway.inside found
  have isAt := underway.isAt found (by rw [ready]; exact WarpState.noConfusion)
  have running : ((stand position).run kernel).completed = false := by
    rw [← Bool.not_eq_true, ← isAt.completed, ready]
    exact WarpState.noConfusion
  rcases (underway.along position inside).cases_head with
    finished | ⟨after, step, rest⟩
  · -- At the end of the phase nothing is left to access.
    rcases underway.continues with ⟨ended, _⟩ | ⟨stops, _⟩
    · have here := ended position inside
      rw [← finished] at here
      exact absurd (here.symm.trans running) Bool.noConfusion
    · have arrives := (stops position inside).arrive
      rw [← finished] at arrives
      rw [PathRun.accesses?_of_arrive arrives] at accesses
      cases accesses
  · have settled : after.Settled kernel :=
      OwnPaths.settled_of_reaches rest
        (underway.continues.settled inside)
    obtain ⟨inst, fetched, notBarrier, executed⟩ := step
    rw [OwnPaths.accesses_of_step fetched notBarrier executed] at accesses
    cases accesses
    have allowed
        (lane : Nat)
        (own : OwnLane)
        (isLane : (stand position).lanes[lane]? = some own)
        (active : (stand position).current.mask.getLsbD lane = true) :
        ∀ access ∈ (own.lane.access? inst).toList,
          Allowed (Use.may use) scope (position, lane) access := by
      intro access member
      have isLater :
          after.lanes[lane]? = some (own.execute inst) := by
        obtain ⟨next, _, rfl⟩ := Option.map_eq_some_iff.mp executed
        rw [getElem?_onLanes, isLane, Option.map_some, if_pos active]
      obtain ⟨last, isLast, kept⟩ :=
        OwnPaths.touched_of_reaches rest isLater
      exact
        underway.phase.allowed position inside lane last isLast access
          (kept (List.mem_append_right _ member))
    obtain ⟨moved, made⟩ :=
      shares_execute underway.made inside allowed executed
    rw [OwnPaths.nextWith_of_step fetched moved settled] at isAtNext
    refine ⟨⟨Function.update stand position after, ?_⟩, ?_⟩
    · refine
        ⟨underway.phase, underway.continues, fun other within => ?_, made,
          by rw [List.length_set, underway.length],
          fun other warp foundOther => ?_⟩
      · by_cases same : other = position
        · subst same
          rw [Function.update_self]
          exact rest
        · rw [Function.update_of_ne same]
          exact underway.along other within
      · by_cases same : other = position
        · subst same
          rw [List.getElem?_set_self'] at foundOther
          obtain ⟨_, _, rfl⟩ := Option.map_eq_some_iff.mp foundOther
          rw [Function.update_self]
          exact Or.inl ⟨isAtNext, notWaiting⟩
        · rw [List.getElem?_set_ne (Ne.symm same)] at foundOther
          rw [Function.update_of_ne same]
          exact underway.placed other warp foundOther
    · intro access member notMine
      rw [accesses_eq inst position, List.mem_flatMap] at member
      obtain ⟨⟨place, lane⟩, isMoving, accessed⟩ := member
      obtain ⟨rfl, own, isLane, active⟩ := mem_movingLanes.mp isMoving
      rw [laneAccesses, isLane] at accessed
      have permitted := allowed lane own isLane active access accessed
      exact
        Use.kind_of_readOnly
          (underway.phase.readsOthers access.address permitted.2 notMine)
          permitted

/-- One warp waits at the barrier, where it finishes its phase. -/
theorem waits
    (underway :
      Underway kernel count scope mine goal initial use finish stand warps
        view)
    (found : warps[position]? = some warp)
    {changed : Warp}
    (atBarrier : ((stand position).run kernel).AtBarrier kernel)
    (isAtNext :
      ∀ next,
        ((stand position).run kernel).arrive? kernel = some next →
        changed.IsAt next)
    (waiting : changed.state = .stalledAtBarrier) :
    Underway kernel count scope mine goal initial use finish stand
      (warps.set position changed) view := by
  have inside := underway.inside found
  obtain ⟨finished, stops⟩ :=
    underway.finished_of_atBarrier inside atBarrier
  have arrives := (stops position inside).arrive
  rw [← finished] at arrives
  refine
    { underway with
      length := by rw [List.length_set, underway.length]
      placed := fun other warp foundOther => ?_ }
  by_cases same : other = position
  · subst same
    rw [List.getElem?_set_self'] at foundOther
    obtain ⟨_, _, rfl⟩ := Option.map_eq_some_iff.mp foundOther
    refine Or.inr ⟨finished, ?_, waiting⟩
    rw [← finished]
    exact isAtNext _ arrives
  · rw [List.getElem?_set_ne (Ne.symm same)] at foundOther
    exact underway.placed other warp foundOther

/-- The last warp to arrive releases the block into its next phase. -/
theorem released
    (underway :
      Underway kernel count scope mine goal initial use finish stand warps
        view)
    (found : warps[position]? = some warp)
    {blockId cycle : Nat}
    {changed : Warp}
    (ofBlock : ∀ warp ∈ warps, warp.blockId? = some blockId)
    (atBarrier : ((stand position).run kernel).AtBarrier kernel)
    (isAtNext :
      ∀ next,
        ((stand position).run kernel).arrive? kernel = some next →
        changed.IsAt next ∧ changed.state = .ready)
    (othersWait : SM.OthersWait warps position blockId) :
    ∃ use finish stand,
      Underway kernel count scope mine goal view use finish stand
        ((warps.map (Warp.releaseFrom blockId cycle)).set position changed)
        view := by
  have inside := underway.inside found
  obtain ⟨finished, stops⟩ :=
    underway.finished_of_atBarrier inside atBarrier
  have waits
      {other : Nat}
      {waiting : Warp}
      (elsewhere : other ≠ position)
      (foundOther : warps[other]? = some waiting) :
      stand other = finish other ∧
        waiting.IsAt ⟨(finish other).past, false⟩ ∧
          waiting.state = .stalledAtBarrier := by
    have inBlock : SM.belongsTo waiting blockId = true := by
      simp [SM.belongsTo, ofBlock waiting (List.mem_of_getElem? foundOther)]
    have isWaiting := othersWait other waiting elsewhere foundOther inBlock
    rcases underway.placed other waiting foundOther with
      ⟨_, notWaiting⟩ | waits
    · exact (notWaiting isWaiting).elim
    · exact waits
  have allFinished : ∀ other < count, stand other = finish other := by
    intro other within
    by_cases same : other = position
    · rw [same, finished]
    · rw [← underway.length] at within
      exact (waits same (List.getElem?_eq_getElem within)).1
  have goesOn :
      Bulk kernel count scope mine goal
        (fun position => (finish position).past) view := by
    rcases underway.continues with ⟨ended, _⟩ | ⟨_, goesOn⟩
    · have here := ended position inside
      rw [← finished] at here
      have stopsHere := stops position inside
      rw [← finished] at stopsHere
      exact absurd (here.symm.trans stopsHere.notEnded) Bool.noConfusion
    · have made := underway.made
      rw [Made, ownMemory_congr allFinished] at made
      exact goesOn view made
  have arrives := (stops position inside).arrive
  rw [← finished] at arrives
  obtain ⟨isAtChanged, changedReady⟩ := isAtNext _ arrives
  rw [finished] at isAtChanged
  have running : changed.state ≠ .stalledAtBarrier := by
    rw [changedReady]
    exact WarpState.noConfusion
  refine
    goesOn.underway (fun other within => (stops other within).1)
      (by rw [List.length_set, List.length_map, underway.length])
      fun other warp foundOther => ?_
  by_cases same : other = position
  · subst same
    rw [List.getElem?_set_self'] at foundOther
    obtain ⟨_, _, rfl⟩ := Option.map_eq_some_iff.mp foundOther
    exact ⟨isAtChanged, running⟩
  · rw [List.getElem?_set_ne (Ne.symm same), List.getElem?_map]
      at foundOther
    obtain ⟨waiting, isWaiting, rfl⟩ :=
      Option.map_eq_some_iff.mp foundOther
    obtain ⟨_, isAtPast, isStalled⟩ := waits same isWaiting
    have inBlock := ofBlock waiting (List.mem_of_getElem? isWaiting)
    have freed :
        (waiting.releaseFrom blockId cycle).state = .ready :=
      Warp.releaseFrom_waiting inBlock isStalled
    refine ⟨⟨?_, ?_⟩, by rw [freed]; exact WarpState.noConfusion⟩
    · rw [(SM.releaseFrom_core blockId cycle waiting).paths]
      exact isAtPast.paths
    · rw [freed]
      exact iff_of_false WarpState.noConfusion Bool.false_ne_true

/-- A warp that issues moves its block along, and changes its own cells only. -/
theorem issue
    {memory memory' : MemorySystem}
    {blockId : Nat}
    {changed : List Warp}
    (underway :
      Underway kernel count scope mine goal initial use finish stand warps
        memory.view)
    (found : warps[position]? = some warp)
    (ready : warp.state = .ready)
    (ofBlock : ∀ warp ∈ warps, warp.blockId? = some blockId)
    (issued :
      SM.IssueStep kernel warps position warp memory changed memory') :
    ∃ performed,
      MemoryEffect performed memory memory' ∧
        (∀ access ∈ performed,
          ¬ mine access.address → access.kind = .load) ∧
          ∃ phaseInitial use finish stand,
            Underway kernel count scope mine goal phaseInitial use finish
              stand changed memory'.view := by
  have inBlock := ofBlock warp (List.mem_of_getElem? found)
  have isAt := underway.isAt found (by rw [ready]; exact WarpState.noConfusion)
  cases issued.agent inBlock ready isAt with
  | goesOn accesses effect isAtNext notWaiting =>
      obtain ⟨⟨later, moved⟩, quiet⟩ :=
        underway.goesOn found ready accesses isAtNext notWaiting
      rw [← effect.view] at moved
      exact ⟨_, effect, quiet, _, _, _, _, moved⟩
  | waits atBarrier stops effect isAtNext waiting othersRun =>
      have waits := underway.waits found atBarrier isAtNext waiting
      have same : memory'.view = memory.view := effect.view
      rw [← same] at waits
      exact
        ⟨[], effect, fun _ none => absurd none List.not_mem_nil, _, _, _, _,
          waits⟩
  | released cycle atBarrier stops effect isAtNext othersWait =>
      obtain ⟨use, finish, stand, released⟩ :=
        @released kernel count scope mine goal initial memory.view use
          finish stand warps position warp underway found blockId cycle _
          ofBlock atBarrier isAtNext othersWait
      have same : memory'.view = memory.view := effect.view
      rw [← same] at released
      exact
        ⟨[], effect, fun _ none => absurd none List.not_mem_nil, _, _, _, _,
          released⟩

/-- When every warp has completed, the goal is reached. -/
theorem completed
    (underway :
      Underway kernel count scope mine goal initial use finish stand warps
        view)
    (positive : 0 < count)
    (completed : ∀ warp ∈ warps, warp.state = .completed)
    {address : Nat}
    (isGlobal : IsGlobal address)
    (isMine : mine address) :
    view address = goal address := by
  have ended :
      ∀ position < count,
        stand position = finish position ∧
          ((finish position).run kernel).completed = true := by
    intro position within
    rw [← underway.length] at within
    have found := List.getElem?_eq_getElem within
    have isCompleted := completed _ (List.getElem_mem within)
    have isAt :=
      underway.isAt found (by rw [isCompleted]; exact WarpState.noConfusion)
    have atEnd := isAt.completed.mp isCompleted
    rw [underway.length] at within
    rcases (underway.along position within).cases_head with
      finished | ⟨_, step, _⟩
    · rw [← finished]
      exact ⟨rfl, atEnd⟩
    · exact absurd (atEnd.symm.trans step.notEnded) Bool.noConfusion
  rcases underway.continues with ⟨_, result⟩ | ⟨stops, _⟩
  · have made := underway.made
    rw [Made, ownMemory_congr fun position within => (ended position within).1]
      at made
    exact result view made address isGlobal isMine
  · have atEnd := (ended 0 positive).2
    exact
      absurd (atEnd.symm.trans (stops 0 positive).notEnded) Bool.noConfusion

end Underway

end Underway

/-! ## Grids of such blocks -/

/-- The cells that a block writes. -/
def Mine (writer : Nat → Option Nat) (blockId address : Nat) : Prop :=
  writer address = some blockId

/-- The cells that a block may use: its own, and those that nobody writes. -/
def InScope (writer : Nat → Option Nat) (blockId address : Nat) : Prop :=
  writer address = none ∨ writer address = some blockId

/--
The invariant of a run of such blocks.  Cells that nobody writes hold what they
held; the cells of a block hold what they held until it starts, what its lanes
made while it runs, and then the goal.
-/
structure Kept
    (grid : Grid)
    (kernel : Kernel)
    (numSms : Nat)
    (writer : Nat → Option Nat)
    (initial goal : Nat → Word)
    (state : GridState) :
    Prop where
  common :
    ∀ smId < numSms,
      ∀ address,
        writer address = none → state.view smId address = initial address
  pending :
    ∀ block ∈ grid.blocks,
      state.stage block.blockId = .pending →
      ∀ smId < numSms,
        ∀ address,
          Mine writer block.blockId address →
          state.view smId address = initial address
  resident :
    ∀ blockId smId warps,
      state.stage blockId = .resident smId warps →
      smId < numSms ∧
        ∃ block ∈ grid.blocks,
          block.blockId = blockId ∧
            ∃ phaseInitial use finish stand,
              Underway kernel block.warps.length (InScope writer blockId)
                (Mine writer blockId) goal phaseInitial use finish stand
                warps (state.view smId)
  retired :
    ∀ block ∈ grid.blocks,
      ∀ smId,
        state.stage block.blockId = .retired smId →
        ∀ address,
          IsGlobal address →
          Mine writer block.blockId address →
          state.globalMemory.data address = goal address

section Kept

variable {grid : Grid}
variable {kernel : Kernel}
variable {numSms : Nat}
variable {writer : Nat → Option Nat}
variable {initial goal : Nat → Word}
variable {before after : GridState}

/-- Every warp of a grid waits for its first instruction. -/
def Grid.Waiting (grid : Grid) (kernel : Kernel) : Prop :=
  ∀ block ∈ grid.blocks,
    ∀ warp ∈ block.warps, warp.state = .ready ∧ warp.warpPc < kernel.size

/-- Where the warps of a block start. -/
def ThreadBlock.start (block : ThreadBlock) (position : Nat) : PathState :=
  (block.warps[position]?.map Warp.paths).getD ⟨[], ⟨0, 0⟩, []⟩

/-- Global cells are seen by every multiprocessor alike. -/
theorem view_global
    {state : GridState}
    {smId address : Nat}
    (isGlobal : IsGlobal address) :
    state.view smId address = state.globalMemory.data address := by
  have notShared : ¬ MemorySystem.isShared address = true := by
    rw [isGlobal]
    exact Bool.false_ne_true
  rw [GridState.view, dataView, if_neg notShared]

/-- Where nothing but loads happen, no multiprocessor sees a change. -/
theorem view_issue
    {state : GridState}
    {smId : Nat}
    {stage : Nat → BlockStage}
    {memory memory' : MemorySystem}
    {performed : List (Access Nat Word)}
    (sharedBefore : memory.sharedMemory = state.shared smId)
    (globalBefore : memory.globalMemory = state.globalMemory)
    (effect : MemoryEffect performed memory memory')
    {address : Nat}
    (loads :
      ∀ access ∈ performed,
        access.address = address → access.kind = .load)
    (other : Nat) :
    (GridState.mk stage
        (Function.update state.shared smId memory'.sharedMemory)
        memory'.globalMemory).view other address =
      state.view other address := by
  have here : memory'.view address = memory.view address := by
    rw [effect.view]
    exact applyAll_of_loads loads
  have beforeView : memory.view = state.view smId := by
    rw [MemorySystem.view, GridState.view, sharedBefore, globalBefore]
  by_cases same : other = smId
  · subst same
    rw [← beforeView, ← here]
    simp only [GridState.view, Function.update_self]
    rfl
  · cases isShared : MemorySystem.isShared address with
    | true =>
        simp only [GridState.view, dataView, isShared, if_true,
          Function.update_of_ne same]
    | false =>
        rw [view_global isShared, view_global isShared, ← globalBefore]
        rw [view_of_global isShared, view_of_global isShared] at here
        exact here

namespace Kept

/-- Blocks that move to other stages while nobody executes. -/
theorem restage
    (kept : Kept grid kernel numSms writer initial goal before)
    {stage : Nat → BlockStage}
    (pending :
      ∀ block ∈ grid.blocks,
        stage block.blockId = .pending →
        before.stage block.blockId = .pending)
    (resident :
      ∀ blockId smId warps,
        stage blockId = .resident smId warps →
        smId < numSms ∧
          ∃ block ∈ grid.blocks,
            block.blockId = blockId ∧
              ∃ phaseInitial use finish stand,
                Underway kernel block.warps.length (InScope writer blockId)
                  (Mine writer blockId) goal phaseInitial use finish stand
                  warps (before.view smId))
    (retired :
      ∀ block ∈ grid.blocks,
        ∀ smId,
          stage block.blockId = .retired smId →
          ∀ address,
            IsGlobal address →
            Mine writer block.blockId address →
            before.globalMemory.data address = goal address) :
    Kept grid kernel numSms writer initial goal
      { before with stage := stage } where
  common := kept.common
  pending block member isPending :=
    kept.pending block member (pending block member isPending)
  resident := resident
  retired := retired

/-- A block that is dispatched is at the start of its first phase. -/
theorem dispatch
    (waiting : grid.Waiting kernel)
    (correct :
      ∀ block ∈ grid.blocks,
        ∀ memory : Nat → Word,
          (∀ address,
            InScope writer block.blockId address →
            memory address = initial address) →
          Bulk kernel block.warps.length (InScope writer block.blockId)
            (Mine writer block.blockId) goal block.start memory)
    (kept : Kept grid kernel numSms writer initial goal before)
    {block : ThreadBlock}
    {smId : Nat}
    (member : block ∈ grid.blocks)
    (isPending : before.stage block.blockId = .pending)
    (inside : smId < numSms) :
    Kept grid kernel numSms writer initial goal
      (before.setStage block.blockId (.resident smId block.warps)) := by
  refine kept.restage ?_ ?_ ?_
  · intro other otherMember otherPending
    by_cases same : other.blockId = block.blockId
    · rw [same, Function.update_self] at otherPending
      cases otherPending
    · rwa [Function.update_of_ne same] at otherPending
  · intro other otherSm warps otherResident
    by_cases same : other = block.blockId
    · subst same
      rw [Function.update_self] at otherResident
      cases otherResident
      have found
          {position : Nat}
          {warp : Warp}
          (isWarp : block.warps[position]? = some warp) :
          block.start position = warp.paths := by
        rw [ThreadBlock.start, isWarp]
        rfl
      have bulk :=
        correct block member (before.view smId) fun address inScope => by
          rcases inScope with nobody | isMine
          · exact kept.common smId inside address nobody
          · exact
              kept.pending block member isPending smId inside address isMine
      refine ⟨inside, block, member, rfl, before.view smId, ?_⟩
      refine bulk.underway (fun position within => ?_) rfl
        fun position warp isWarp => ?_
      · have isWarp := List.getElem?_eq_getElem within
        rw [found isWarp]
        exact (waiting block member _ (List.getElem_mem within)).2
      · obtain ⟨ready, _⟩ :=
          waiting block member warp (List.mem_of_getElem? isWarp)
        rw [found isWarp]
        refine ⟨⟨rfl, ?_⟩, by rw [ready]; exact WarpState.noConfusion⟩
        rw [ready]
        exact iff_of_false WarpState.noConfusion Bool.false_ne_true
    · rw [Function.update_of_ne same] at otherResident
      exact kept.resident other otherSm warps otherResident
  · intro other otherMember otherSm otherRetired
    by_cases same : other.blockId = block.blockId
    · rw [same, Function.update_self] at otherRetired
      cases otherRetired
    · rw [Function.update_of_ne same] at otherRetired
      exact kept.retired other otherMember otherSm otherRetired

/-- A block that is retired has reached the goal. -/
theorem retire
    (wellFormed : grid.WellFormed)
    (kept : Kept grid kernel numSms writer initial goal before)
    {blockId smId : Nat}
    {warps : List Warp}
    (isResident : before.stage blockId = .resident smId warps)
    (completed : ∀ warp ∈ warps, warp.state = .completed) :
    Kept grid kernel numSms writer initial goal
      (before.setStage blockId (.retired smId)) := by
  obtain
    ⟨_, block, member, sameId, phaseInitial, use, finish, stand, underway⟩ :=
    kept.resident blockId smId warps isResident
  have positive : 0 < block.warps.length :=
    List.length_pos_of_ne_nil (wellFormed.blocks block member).1
  refine kept.restage ?_ ?_ ?_
  · intro other otherMember otherPending
    by_cases same : other.blockId = blockId
    · rw [same, Function.update_self] at otherPending
      cases otherPending
    · rwa [Function.update_of_ne same] at otherPending
  · intro other otherSm otherWarps otherResident
    by_cases same : other = blockId
    · rw [same, Function.update_self] at otherResident
      cases otherResident
    · rw [Function.update_of_ne same] at otherResident
      exact kept.resident other otherSm otherWarps otherResident
  · intro other otherMember otherSm otherRetired address isGlobal isMine
    by_cases same : other.blockId = blockId
    · rw [same] at isMine
      rw [← @view_global before smId address isGlobal]
      exact underway.completed positive completed isGlobal isMine
    · rw [Function.update_of_ne same] at otherRetired
      exact
        kept.retired other otherMember otherSm otherRetired address isGlobal
          isMine

/-- Time that passes leaves every block in its phase. -/
theorem wait
    (kept : Kept grid kernel numSms writer initial goal before)
    {stage : Nat → BlockStage}
    (waits : ∀ blockId, (before.stage blockId).Waits (stage blockId)) :
    Kept grid kernel numSms writer initial goal
      { before with stage := stage } := by
  refine kept.restage ?_ ?_ ?_
  · intro block member isPending
    have waited := waits block.blockId
    rw [isPending] at waited
    generalize earlier : before.stage block.blockId = stageBefore at waited
    cases waited
    rfl
  · intro blockId smId warps isResident
    have waited := waits blockId
    rw [isResident] at waited
    generalize earlier : before.stage blockId = stageBefore at waited
    cases waited with
    | resident waited =>
        obtain ⟨inside, block, member, sameId, phaseInitial, use, finish,
            stand, underway⟩ :=
          kept.resident blockId smId _ earlier
        refine
          ⟨inside, block, member, sameId, phaseInitial, use, finish, stand,
            { underway with
              length := waited.length_eq.symm.trans underway.length
              placed := fun position warp found => ?_ }⟩
        obtain ⟨former, foundFormer, hasWaited⟩ :=
          Pointwise.origin waited found
        rcases underway.placed position former foundFormer with
          ⟨isAt, running⟩ | ⟨finished, isAt, waiting⟩
        · exact
            Or.inl
              ⟨isAt.waited hasWaited,
                fun stalled => running (hasWaited.atBarrier_iff.mp stalled)⟩
        · exact
            Or.inr
              ⟨finished, isAt.waited hasWaited,
                hasWaited.atBarrier_iff.mpr waiting⟩
  · intro block member smId isRetired
    have waited := waits block.blockId
    rw [isRetired] at waited
    generalize earlier : before.stage block.blockId = stageBefore at waited
    cases waited
    exact kept.retired block member smId earlier

/-- A warp that issues moves its own block along and no other. -/
theorem issue
    (kept : Kept grid kernel numSms writer initial goal before)
    {blockId smId position : Nat}
    {warps changed : List Warp}
    {warp : Warp}
    {memory memory' : MemorySystem}
    (isResident : before.stage blockId = .resident smId warps)
    (ofBlock : ∀ warp ∈ warps, warp.blockId? = some blockId)
    (found : warps[position]? = some warp)
    (ready : warp.state = .ready)
    (sharedBefore : memory.sharedMemory = before.shared smId)
    (globalBefore : memory.globalMemory = before.globalMemory)
    (issued :
      SM.IssueStep kernel warps position warp memory changed memory') :
    Kept grid kernel numSms writer initial goal
      { stage :=
          Function.update before.stage blockId (.resident smId changed)
        shared := Function.update before.shared smId memory'.sharedMemory
        globalMemory := memory'.globalMemory } := by
  obtain ⟨inside, block, member, sameId, _, _, _, _, underway⟩ :=
    kept.resident blockId smId warps isResident
  have viewBefore : memory.view = before.view smId := by
    rw [MemorySystem.view, GridState.view, sharedBefore, globalBefore]
  rw [← viewBefore] at underway
  obtain ⟨performed, effect, quiet, _, _, _, _, later⟩ :=
    underway.issue found ready ofBlock issued
  have unchanged
      (stage : Nat → BlockStage)
      (other : Nat)
      {address : Nat}
      (notMine : ¬ Mine writer blockId address) :
      (GridState.mk stage
          (Function.update before.shared smId memory'.sharedMemory)
          memory'.globalMemory).view other address =
        before.view other address := by
    refine view_issue sharedBefore globalBefore effect ?_ other
    rintro access accessed rfl
    exact quiet access accessed notMine
  have notMine_of_other
      {other address : Nat}
      (elsewhere : other ≠ blockId)
      (inScope : InScope writer other address) :
      ¬ Mine writer blockId address := by
    intro isMine
    rcases inScope with nobody | isOther
    · rw [Mine, nobody] at isMine
      cases isMine
    · rw [Mine, isOther] at isMine
      exact elsewhere (Option.some.inj isMine)
  refine ⟨?_, ?_, ?_, ?_⟩
  · intro other within address nobody
    have notMine : ¬ Mine writer blockId address := by
      rw [Mine, nobody]
      exact (Option.some_ne_none _).symm
    rw [unchanged _ other notMine]
    exact kept.common other within address nobody
  · intro other otherMember isPending otherSm within address isMine
    dsimp only at isPending
    have elsewhere : other.blockId ≠ blockId := by
      intro same
      rw [same, Function.update_self] at isPending
      cases isPending
    rw [Function.update_of_ne elsewhere] at isPending
    rw [unchanged _ otherSm (notMine_of_other elsewhere (Or.inr isMine))]
    exact
      kept.pending other otherMember isPending otherSm within address isMine
  · intro other otherSm otherWarps otherResident
    dsimp only at otherResident
    by_cases same : other = blockId
    · subst same
      rw [Function.update_self] at otherResident
      cases otherResident
      refine ⟨inside, block, member, sameId, _, _, _, _, later.frame ?_⟩
      intro address _
      simp only [GridState.view, Function.update_self]
      rfl
    · rw [Function.update_of_ne same] at otherResident
      obtain ⟨otherInside, otherBlock, otherMember, otherId, _, _, _, _,
          otherUnderway⟩ :=
        kept.resident other otherSm otherWarps otherResident
      exact
        ⟨otherInside, otherBlock, otherMember, otherId, _, _, _, _,
          otherUnderway.frame fun address inScope =>
            unchanged _ otherSm (notMine_of_other same inScope)⟩
  · intro other otherMember otherSm isRetired address isGlobal isMine
    dsimp only at isRetired ⊢
    have elsewhere : other.blockId ≠ blockId := by
      intro same
      rw [same, Function.update_self] at isRetired
      cases isRetired
    rw [Function.update_of_ne elsewhere] at isRetired
    have same :=
      unchanged before.stage otherSm
        (notMine_of_other elsewhere (Or.inr isMine))
    rw [view_global isGlobal, view_global isGlobal] at same
    rw [same]
    exact
      kept.retired other otherMember otherSm isRetired address isGlobal
        isMine

/-- Every step of the grid machine keeps the invariant. -/
theorem step
    (wellFormed : grid.WellFormed)
    (waiting : grid.Waiting kernel)
    (correct :
      ∀ block ∈ grid.blocks,
        ∀ memory : Nat → Word,
          (∀ address,
            InScope writer block.blockId address →
            memory address = initial address) →
          Bulk kernel block.warps.length (InScope writer block.blockId)
            (Mine writer block.blockId) goal block.start memory)
    (kept : Kept grid kernel numSms writer initial goal before)
    (step : Step kernel grid numSms before after) :
    Kept grid kernel numSms writer initial goal after := by
  cases step with
  | dispatch member isPending inside =>
      exact kept.dispatch waiting correct member isPending inside
  | retire isResident completed =>
      exact kept.retire wellFormed isResident completed
  | wait waits => exact kept.wait waits
  | issue isResident ofBlock found ready sharedBefore globalBefore issued =>
      exact
        kept.issue isResident ofBlock found ready sharedBefore globalBefore
          issued

/-- A run of the grid machine keeps the invariant. -/
theorem steps
    (wellFormed : grid.WellFormed)
    (waiting : grid.Waiting kernel)
    (correct :
      ∀ block ∈ grid.blocks,
        ∀ memory : Nat → Word,
          (∀ address,
            InScope writer block.blockId address →
            memory address = initial address) →
          Bulk kernel block.warps.length (InScope writer block.blockId)
            (Mine writer block.blockId) goal block.start memory)
    (kept : Kept grid kernel numSms writer initial goal before)
    (steps : Steps kernel grid numSms before after) :
    Kept grid kernel numSms writer initial goal after := by
  refine Steps.invariant ?_ steps kept
  intro first second taken kept
  exact kept.step wellFormed waiting correct taken

end Kept

end Kept

namespace GPU

variable {σ : Type}

/--
Blocks that are correct phase by phase, and that write to different cells,
leave the goal in the cells that they write, and everything else as it was.
-/
theorem bulk_correct
    [WarpScheduler σ]
    [LawfulWarpScheduler σ]
    {grid : Grid}
    {kernel : Kernel}
    {writer : Nat → Option Nat}
    {initial goal : Nat → Word}
    (wellFormed : grid.WellFormed)
    (waiting : grid.Waiting kernel)
    (correct :
      ∀ block ∈ grid.blocks,
        ∀ memory : Nat → Word,
          (∀ address,
            InScope writer block.blockId address →
            memory address = initial address) →
          Bulk kernel block.warps.length (InScope writer block.blockId)
            (Mine writer block.blockId) goal block.start memory)
    {gpu after : GPU σ}
    (nonempty : gpu.sms ≠ [])
    (sees :
      ∀ smId < gpu.sms.length, gpu.gridState.view smId = initial)
    {config : SystemConfig}
    {req : KernelResourceRequirements}
    {fuel : Nat}
    (ran :
      gpu.launchAndRun grid config req kernel fuel = some (.ok after))
    {address : Nat}
    (isGlobal : IsGlobal address) :
    (writer address = none →
        after.globalMemory.data address = initial address) ∧
      ∀ block ∈ grid.blocks,
        Mine writer block.blockId address →
        after.globalMemory.data address = goal address := by
  obtain ⟨final, steps, sameFinal, retires⟩ :=
    gpu.launchAndRun_steps wellFormed ran
  have started :
      Kept grid kernel gpu.sms.length writer initial goal gpu.gridState := by
    refine
      ⟨fun smId inside address _ => ?_,
        fun _ _ _ smId inside address _ => ?_,
        fun _ _ _ resident => BlockStage.noConfusion resident,
        fun _ _ _ retired => BlockStage.noConfusion retired⟩
    · rw [sees smId inside]
    · rw [sees smId inside]
  have kept := started.steps wellFormed waiting correct steps
  have unstarted : grid.Unstarted := by
    intro block member warp ofBlock
    rw [(waiting block member warp ofBlock).1]
    exact WarpState.noConfusion
  have some := List.length_pos_of_ne_nil nonempty
  rw [← sameFinal]
  constructor
  · intro nobody
    rw [← @view_global final 0 address isGlobal]
    exact kept.common 0 some address nobody
  · intro block member isMine
    obtain ⟨smId, isRetired⟩ := retires nonempty unstarted block member
    exact kept.retired block member smId isRetired address isGlobal isMine

end GPU

end SimSm
