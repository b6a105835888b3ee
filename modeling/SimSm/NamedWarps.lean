import SimSm.WarpAgent

namespace SimSm

/-!
# Warps by name

A warp is named by the id of its block and its position there.  Beside the warps
of every multiprocessor their names are kept, whatever ids the threads carry:
admission appends them, a release keeps those of the warps that it keeps, and
what a warp touches goes by its name.  Without barriers a run of the GPU moves
one named warp at a time, as the agent that it is.
-/

open Interleaving Outcome

/-- The names of the warps of a block. -/
def ThreadBlock.names (block : ThreadBlock) : List (Nat × Nat) :=
  (List.range block.warps.length).map fun position =>
    (block.blockId, position)

/-- One access of a warp, named by its block and its position in the block. -/
structure Touch where
  blockId : Nat
  position : Nat
  access : Access Nat Word

/-- What a warp touches under its name when it issues. -/
def Warp.touches
    (kernel : Kernel)
    (name : Nat × Nat)
    (warp : Warp) :
    List Touch :=
  (warp.accesses kernel).map (Touch.mk name.1 name.2)

/-- What a tick touches, under the name of the warp that it issues. -/
def SM.tickTouches
    {σ : Type}
    [WarpScheduler σ]
    (kernel : Kernel)
    (sm : SM σ)
    (names : List (Nat × Nat)) :
    List Touch :=
  match sm.issued? with
  | none => []
  | some (index, warp) =>
      match names[index]? with
      | none => []
      | some name => warp.touches kernel name

namespace GPU

variable {σ : Type}

/-- The names beside the warps once a multiprocessor is dispatched to. -/
def dispatchNames
    (config : SystemConfig)
    (req : KernelResourceRequirements)
    (sm : SM σ)
    (names : List (Nat × Nat)) :
    List ThreadBlock → List (Nat × Nat)
  | [] => names
  | block :: rest =>
      if sm.canAdmit block config req then
        dispatchNames config req (sm.allocateBlock block req)
          (names ++ block.names) rest
      else
        names

/-- The names beside the warps once all multiprocessors are dispatched to. -/
def dispatchAllNames
    (config : SystemConfig)
    (req : KernelResourceRequirements) :
    List (SM σ) → List (List (Nat × Nat)) → List ThreadBlock →
      List (List (Nat × Nat))
  | sm :: sms, names :: others, pending =>
      dispatchNames config req sm names pending ::
        match dispatch config req sm pending with
        | .error _ => others
        | .ok (_, rest) => dispatchAllNames config req sms others rest
  | _, rolls, _ => rolls

/-- The names beside the warps after a launch. -/
def launchNames
    (gpu : GPU σ)
    (grid : Grid)
    (config : SystemConfig)
    (req : KernelResourceRequirements) :
    List (List (Nat × Nat)) :=
  dispatchAllNames config req (gpu.sms.map SM.clearWarps)
    (gpu.sms.map fun _ => []) grid.blocks

/-- The names beside the warps after a refill. -/
def refillNames
    (gpu : GPU σ)
    (rolls : List (List (Nat × Nat))) :
    List (List (Nat × Nat)) :=
  dispatchAllNames gpu.config gpu.req
    (gpu.sms.map SM.releaseCompletedBlocks)
    (List.zipWith SM.retain gpu.sms rolls) gpu.remaining

/-- What the tick phase touches. -/
def tickSmsTouches [WarpScheduler σ]
    (kernel : Kernel)
    (config : MemoryAccessConfig) :
    List (SM σ) → List (List (Nat × Nat)) → Cache → GlobalMemory → List Touch
  | sm :: sms, names :: rolls, l2Cache, globalMemory =>
      if sm.isCompleted then
        tickSmsTouches kernel config sms rolls l2Cache globalMemory
      else
        sm.tickTouches kernel names ++
          match tickSm kernel config sm l2Cache globalMemory with
          | .error _ => []
          | .ok (_, l2Cache, globalMemory) =>
              tickSmsTouches kernel config sms rolls l2Cache globalMemory
  | _, _, _, _ => []

/-- What one iteration of the run loop touches. -/
def iterateTouches [WarpScheduler σ]
    (kernel : Kernel)
    (gpu : GPU σ)
    (rolls : List (List (Nat × Nat))) :
    List Touch :=
  match gpu.refill with
  | .error _ => []
  | .ok refilled =>
      tickSmsTouches kernel refilled.config.memoryAccessConfig
        refilled.sms (gpu.refillNames rolls) refilled.l2Cache
        refilled.globalMemory

/-- What the run loop touches. -/
def runTouches [WarpScheduler σ]
    (kernel : Kernel) :
    Nat → GPU σ → List (List (Nat × Nat)) → List Touch
  | 0, _, _ => []
  | fuel + 1, gpu, rolls =>
      gpu.iterateTouches kernel rolls ++
        match gpu.iterate kernel with
        | .ok (false, later) =>
            runTouches kernel fuel later (gpu.refillNames rolls)
        | _ => []

/-- What a launch and a run touch, in order. -/
def launchAndRunTouches [WarpScheduler σ]
    (gpu : GPU σ)
    (grid : Grid)
    (config : SystemConfig)
    (req : KernelResourceRequirements)
    (kernel : Kernel)
    (fuel : Nat) :
    List Touch :=
  match gpu.launchKernel grid config req with
  | .error _ => []
  | .ok launched =>
      launched.runTouches kernel fuel (gpu.launchNames grid config req)

end GPU

namespace Grid

/-- The warp of a block at a position. -/
def warp? (grid : Grid) (name : Nat × Nat) : Option Warp :=
  (grid.blocks.find? fun block => block.blockId == name.1).bind fun block =>
    block.warps[name.2]?

/-- The warps of a grid by block and position. -/
def names (grid : Grid) : Finset (Nat × Nat) :=
  (grid.blocks.flatMap ThreadBlock.names).toFinset

/-- Where a warp starts; there is nothing to run outside the grid. -/
def startOf (grid : Grid) (name : Nat × Nat) : PathRun :=
  match grid.warp? name with
  | some warp => ⟨warp.paths, false⟩
  | none => ⟨⟨[], ⟨0, 0⟩, []⟩, true⟩

theorem mem_names
    {grid : Grid}
    {block : ThreadBlock}
    {position : Nat}
    (member : block ∈ grid.blocks)
    (inside : position < block.warps.length) :
    (block.blockId, position) ∈ grid.names := by
  rw [names, List.mem_toFinset, List.mem_flatMap]
  exact
    ⟨block, member, List.mem_map.mpr ⟨position, List.mem_range.mpr inside, rfl⟩⟩

/-- A warp of the grid is found by its name. -/
theorem warp?_eq
    {grid : Grid}
    (distinct : (grid.blocks.map ThreadBlock.blockId).Nodup)
    {block : ThreadBlock}
    {position : Nat}
    {warp : Warp}
    (member : block ∈ grid.blocks)
    (found : block.warps[position]? = some warp) :
    grid.warp? (block.blockId, position) = some warp := by
  have isFound :
      grid.blocks.find? (fun other => other.blockId == block.blockId) =
        some block := by
    cases search :
        grid.blocks.find? fun other => other.blockId == block.blockId with
    | none =>
        have differs := List.find?_eq_none.mp search block member
        simp at differs
    | some other =>
        have sameId : other.blockId = block.blockId := by
          simpa using List.find?_some search
        rw [List.inj_on_of_nodup_map distinct
          (List.mem_of_find?_eq_some search) member sameId]
  rw [warp?]
  dsimp only
  rw [isFound]
  exact found

/-- A warp that has not started stands where its agent starts. -/
theorem isAt_start
    {grid : Grid}
    (distinct : (grid.blocks.map ThreadBlock.blockId).Nodup)
    (unstarted : grid.Unstarted)
    {block : ThreadBlock}
    {position : Nat}
    {warp : Warp}
    (member : block ∈ grid.blocks)
    (found : block.warps[position]? = some warp) :
    warp.IsAt (grid.startOf (block.blockId, position)) := by
  have notCompleted :=
    unstarted block member warp (List.mem_of_getElem? found)
  rw [startOf, warp?_eq distinct member found]
  exact ⟨rfl, iff_of_false notCompleted fun past => by cases past⟩

/-- Blocks with ids of their own name different warps. -/
theorem names_nodup
    (grid : Grid)
    (distinct : (grid.blocks.map ThreadBlock.blockId).Nodup) :
    (grid.blocks.flatMap ThreadBlock.names).Nodup := by
  rw [List.nodup_flatMap]
  constructor
  · intro block _
    exact
      List.nodup_range.map fun first second same => congrArg Prod.snd same
  · rw [List.Nodup, List.pairwise_map] at distinct
    refine distinct.imp fun otherId name inFirst inSecond => ?_
    obtain ⟨_, _, rfl⟩ := List.mem_map.mp inFirst
    obtain ⟨_, _, same⟩ := List.mem_map.mp inSecond
    exact otherId (congrArg Prod.fst same).symm

/-- Nothing starts under a name that is not of the grid. -/
theorem startOf_outside
    {grid : Grid}
    {name : Nat × Nat}
    (outside : name ∉ grid.names) :
    (grid.startOf name).completed = true := by
  rw [startOf]
  cases found : grid.warp? name with
  | none => rfl
  | some warp =>
      obtain ⟨block, search, atPosition⟩ :=
        Option.bind_eq_some_iff.mp found
      have sameId : block.blockId = name.1 := by
        simpa using List.find?_some search
      have inside := (List.getElem?_eq_some_iff.mp atPosition).1
      have isName :=
        mem_names (List.mem_of_find?_eq_some search) inside
      rw [sameId] at isName
      exact (outside isName).elim

end Grid

/-! ## Agents one at a time -/

/--
Agents that proceed one at a time, with what they touch and what they leave in
global memory.
-/
inductive TakeTurns
    (kernel : Kernel)
    (agents : Finset (Nat × Nat)) :
    (Nat × Nat → PathRun) → GlobalMemory → List Touch →
      (Nat × Nat → PathRun) → GlobalMemory → Prop where
  | here
      (here : Nat × Nat → PathRun)
      (globalMemory : GlobalMemory) :
      TakeTurns kernel agents here globalMemory [] here globalMemory
  | step
      {here there : Nat × Nat → PathRun}
      {before after : GlobalMemory}
      {name : Nat × Nat}
      {performed : List (Access Nat Word)}
      {memory memory' : MemorySystem}
      {later : List Touch}
      (isAgent : name ∈ agents)
      (sameBefore : memory.globalMemory = before)
      (accesses : kernel.agent.accesses (here name) = some performed)
      (effect : MemoryEffect performed memory memory')
      (rest :
        TakeTurns kernel agents
          (Function.update here name
            (kernel.agent.next (here name) memory.view))
          memory'.globalMemory later there after) :
      TakeTurns kernel agents here before
        (performed.map (Touch.mk name.1 name.2) ++ later) there after

section TakeTurns

variable {kernel : Kernel}
variable {agents : Finset (Nat × Nat)}
variable {here middle there : Nat × Nat → PathRun}
variable {first second third : GlobalMemory}
variable {earlier later : List Touch}

theorem TakeTurns.trans
    (turns : TakeTurns kernel agents here first earlier middle second)
    (more : TakeTurns kernel agents middle second later there third) :
    TakeTurns kernel agents here first (earlier ++ later) there third := by
  induction turns with
  | here => exact more
  | step isAgent sameBefore accesses effect _ inductionHypothesis =>
      rw [List.append_assoc]
      exact
        .step isAgent sameBefore accesses effect (inductionHypothesis more)

/-- One turn. -/
theorem TakeTurns.one
    {name : Nat × Nat}
    {performed : List (Access Nat Word)}
    {memory memory' : MemorySystem}
    (isAgent : name ∈ agents)
    (accesses : kernel.agent.accesses (here name) = some performed)
    (effect : MemoryEffect performed memory memory') :
    TakeTurns kernel agents here memory.globalMemory
      (performed.map (Touch.mk name.1 name.2))
      (Function.update here name
        (kernel.agent.next (here name) memory.view))
      memory'.globalMemory := by
  have turn :=
    TakeTurns.step isAgent rfl accesses effect (.here _ _)
  rwa [List.append_nil] at turn

end TakeTurns

/-! ## Warps stand where their agents do -/

/-- The warps stand where the agents of their names do. -/
def Stand
    (here : Nat × Nat → PathRun)
    (warps : List Warp)
    (names : List (Nat × Nat)) :
    Prop :=
  List.Forall₂ (fun warp name => warp.IsAt (here name)) warps names

section Stand

variable {here there : Nat × Nat → PathRun}
variable {warps later : List Warp}
variable {names : List (Nat × Nat)}

/-- Where warps stand depends on their own agents only. -/
theorem Stand.congr
    (stand : Stand here warps names)
    (same : ∀ name ∈ names, there name = here name) :
    Stand there warps names := by
  induction stand with
  | nil => exact .nil
  | cons isAt _ inductionHypothesis =>
      refine
        .cons ?_
          (inductionHypothesis fun name member =>
            same name (List.mem_cons_of_mem _ member))
      rw [same _ List.mem_cons_self]
      exact isAt

/-- Waiting leaves the warps where they stand. -/
theorem Stand.waited
    (stand : Stand here warps names)
    (waited : List.Forall₂ Waited warps later) :
    Stand here later names :=
  Pointwise.compose waited.flip stand fun wait isAt => isAt.waited wait

/-- A warp that proceeds goes on with its agent. -/
theorem Stand.set
    {index : Nat}
    {name : Nat × Nat}
    {changed : Warp}
    {run : PathRun}
    (stand : Stand here warps names)
    (distinct : names.Nodup)
    (found : names[index]? = some name)
    (isAt : changed.IsAt run) :
    Stand (Function.update here name run) (warps.set index changed) names := by
  refine
    Pointwise.of_positions (by rw [List.length_set, stand.length_eq]) ?_
  intro position warp other foundWarp foundName
  by_cases same : position = index
  · subst same
    rw [List.getElem?_set_self'] at foundWarp
    obtain ⟨_, _, rfl⟩ := Option.map_eq_some_iff.mp foundWarp
    rw [found, Option.some.injEq] at foundName
    subst foundName
    rw [Function.update_self]
    exact isAt
  · rw [List.getElem?_set_ne (Ne.symm same)] at foundWarp
    have isOther : other ≠ name := by
      rintro rfl
      have inside := (List.getElem?_eq_some_iff.mp foundName).1
      exact
        same
          ((List.getElem?_inj inside distinct).mp
            (foundName.trans found.symm))
    rw [Function.update_of_ne isOther]
    obtain ⟨own, isOwn, isAtOwn⟩ := Pointwise.partner stand foundWarp
    rw [foundName, Option.some.injEq] at isOwn
    rw [isOwn]
    exact isAtOwn

/-- A block that has not started stands where its agents start. -/
theorem stand_start
    {grid : Grid}
    (distinct : (grid.blocks.map ThreadBlock.blockId).Nodup)
    (unstarted : grid.Unstarted)
    {block : ThreadBlock}
    (member : block ∈ grid.blocks) :
    Stand grid.startOf block.warps block.names := by
  refine Pointwise.of_positions (by simp [ThreadBlock.names]) ?_
  intro position warp name found isName
  have isPosition : name = (block.blockId, position) := by
    have inside := (List.getElem?_eq_some_iff.mp found).1
    rw [ThreadBlock.names, List.getElem?_map, List.getElem?_range inside]
      at isName
    exact (Option.some.inj isName).symm
  rw [isPosition]
  exact Grid.isAt_start distinct unstarted member found

end Stand

namespace SM

variable {σ : Type}
variable {kernel : Kernel}
variable {agents : Finset (Nat × Nat)}
variable {here : Nat × Nat → PathRun}
variable {names : List (Nat × Nat)}
variable {sm ticked : SM σ}

/-- A release drops the names of completed warps only. -/
theorem retain_dropped
    (stand : Stand here sm.warps names)
    {name : Nat × Nat}
    (member : name ∈ names)
    (dropped : name ∉ sm.retain names) :
    (here name).completed = true := by
  obtain ⟨index, isName⟩ := List.mem_iff_getElem?.mp member
  obtain ⟨warp, found, isAt⟩ := Pointwise.origin stand isName
  have inZip : (warp, name) ∈ sm.warps.zip names :=
    List.mem_of_getElem?
      (List.getElem?_zip_eq_some.mpr ⟨found, isName⟩)
  by_contra running
  refine
    dropped
      (List.mem_map.mpr
        ⟨(warp, name), List.mem_filter.mpr ⟨inZip, ?_⟩, rfl⟩)
  rw [Bool.not_eq_true', List.any_eq_false]
  intro block isFinished belongs
  have completed := (mem_finishedBlocks.mp isFinished).2
  rw [allCompleted, List.all_eq_true] at completed
  have stopped := completed warp (List.mem_of_getElem? found)
  rw [belongs] at stopped
  exact running (isAt.completed.mp (by simpa using stopped))

/-- A tick is the turn of the agent of the warp that it issues. -/
theorem tick_turns
    [WarpScheduler σ]
    [LawfulWarpScheduler σ]
    (noBarrier : kernel.NoBarrier)
    (stand : Stand here sm.warps names)
    (distinct : names.Nodup)
    (areAgents : ∀ name ∈ names, name ∈ agents)
    {memory memory' : MemorySystem}
    (ran : sm.tick kernel memory = .ok (ticked, memory')) :
    ∃ there,
      TakeTurns kernel agents here memory.globalMemory
          (sm.tickTouches kernel names) there memory'.globalMemory ∧
        Stand there ticked.warps names ∧
        ∀ name, name ∉ names → there name = here name := by
  obtain ⟨_, _, step⟩ := tick_ok ran
  generalize ticked.warps = warps at step
  unfold tickTouches
  cases step with
  | quiet nothing waited =>
      rw [nothing]
      exact ⟨here, .here _ _, stand.waited waited, fun _ _ => rfl⟩
  | issued selected step =>
      rename_i index warp
      have standTimed := stand.waited sm.timed_waited
      obtain ⟨name, isName, isAt⟩ :=
        Pointwise.partner standTimed (issued?_timed selected)
      have member : name ∈ names := List.mem_of_getElem? isName
      obtain ⟨performed, changed, rfl, proceeds⟩ :=
        step.proceeds noBarrier (issued?_ready selected) isAt
      have touches :
          warp.touches kernel name =
            performed.map (Touch.mk name.1 name.2) := by
        rw [Warp.touches, isAt.accesses proceeds.accesses]
      rw [selected]
      dsimp only
      rw [isName]
      dsimp only
      rw [touches]
      exact
        ⟨_, .one (areAgents name member) proceeds.accesses proceeds.effect,
          standTimed.set distinct isName proceeds.isAt,
          fun other outside =>
            Function.update_of_ne
              (fun same => outside (by rwa [same])) _ _⟩

end SM

namespace GPU

variable {σ : Type}
variable {kernel : Kernel}
variable {grid : Grid}
variable {config : SystemConfig}
variable {req : KernelResourceRequirements}
variable {agents : Finset (Nat × Nat)}
variable {here : Nat × Nat → PathRun}
variable {rolls : List (List (Nat × Nat))}

/-- The warps of all multiprocessors stand where their agents do. -/
def StandAll
    (here : Nat × Nat → PathRun)
    (sms : List (SM σ))
    (rolls : List (List (Nat × Nat))) :
    Prop :=
  List.Forall₂ (fun sm names => Stand here sm.warps names) sms rolls

/-- A release leaves the warps that it keeps where they stand. -/
theorem StandAll.release
    {sms : List (SM σ)}
    (stand : StandAll here sms rolls) :
    StandAll here (sms.map SM.releaseCompletedBlocks)
      (List.zipWith SM.retain sms rolls) := by
  induction stand with
  | nil => exact .nil
  | cons first _ inductionHypothesis =>
      exact .cons (SM.retain_related first) inductionHypothesis

/-- The names that a release keeps. -/
theorem StandAll.retain_sublist
    {sms : List (SM σ)}
    (stand : StandAll here sms rolls) :
    (List.zipWith SM.retain sms rolls).flatten.Sublist rolls.flatten := by
  induction stand with
  | nil => exact .slnil
  | cons first _ inductionHypothesis =>
      exact
        (SM.retain_sublist first.length_eq.symm).append inductionHypothesis

/-- Releases drop the names of completed warps only. -/
theorem StandAll.retain_dropped
    {sms : List (SM σ)}
    (stand : StandAll here sms rolls)
    {name : Nat × Nat}
    (member : name ∈ rolls.flatten)
    (dropped : name ∉ (List.zipWith SM.retain sms rolls).flatten) :
    (here name).completed = true := by
  induction stand with
  | nil => cases member
  | cons first _ inductionHypothesis =>
      rw [List.zipWith_cons_cons, List.flatten_cons, List.mem_append,
        not_or] at dropped
      rw [List.flatten_cons, List.mem_append] at member
      rcases member with isFirst | isOther
      · exact SM.retain_dropped first isFirst dropped.1
      · exact inductionHypothesis isOther dropped.2

/-- Where the warps of all multiprocessors stand depends on their agents. -/
theorem StandAll.congr
    {there : Nat × Nat → PathRun}
    {sms : List (SM σ)}
    (stand : StandAll here sms rolls)
    (same : ∀ name ∈ rolls.flatten, there name = here name) :
    StandAll there sms rolls := by
  induction stand with
  | nil => exact .nil
  | cons first _ inductionHypothesis =>
      simp only [List.flatten_cons, List.mem_append] at same
      exact
        .cons (first.congr fun name member => same name (Or.inl member))
          (inductionHypothesis fun name member =>
            same name (Or.inr member))

/-- Where all multiprocessors are completed, so are the agents of their warps. -/
theorem StandAll.completed
    {sms : List (SM σ)}
    (stand : StandAll here sms rolls)
    (completed : ∀ sm ∈ sms, sm.isCompleted = true)
    {name : Nat × Nat}
    (member : name ∈ rolls.flatten) :
    (here name).completed = true := by
  obtain ⟨names, isRoll, isName⟩ := List.mem_flatten.mp member
  obtain ⟨smId, foundRoll⟩ := List.mem_iff_getElem?.mp isRoll
  obtain ⟨sm, foundSm, standSm⟩ := Pointwise.origin stand foundRoll
  obtain ⟨index, foundName⟩ := List.mem_iff_getElem?.mp isName
  obtain ⟨warp, foundWarp, isAt⟩ := Pointwise.origin standSm foundName
  exact
    isAt.completed.mp
      (SM.completed_of_isCompleted
        (completed sm (List.mem_of_getElem? foundSm))
        (List.mem_of_getElem? foundWarp))

/-- Names beside warps that are dispatched with their blocks. -/
theorem dispatch_stand
    {sm after : SM σ}
    {names : List (Nat × Nat)}
    {pending rest : List ThreadBlock}
    (stand : Stand here sm.warps names)
    (waiting : ∀ block ∈ pending, Stand here block.warps block.names)
    (ran : dispatch config req sm pending = .ok (after, rest)) :
    Stand here after.warps (dispatchNames config req sm names pending) ∧
      ∃ admitted,
        admitted ++ rest = pending ∧
          dispatchNames config req sm names pending =
            names ++ admitted.flatMap ThreadBlock.names := by
  induction pending generalizing sm names with
  | nil =>
      cases ran
      exact ⟨stand, [], rfl, (List.append_nil _).symm⟩
  | cons block blocks inductionHypothesis =>
      rw [List.forall_mem_cons] at waiting
      rw [dispatch] at ran
      rw [dispatchNames]
      split at ran
      · rename_i admits
        rw [if_pos admits]
        have standNow :
            Stand here (sm.allocateBlock block req).warps
              (names ++ block.names) := by
          rw [(SM.allocateBlock_admits sm block req).warps]
          exact List.rel_append stand waiting.1
        obtain ⟨standAfter, admitted, order, named⟩ :=
          inductionHypothesis standNow waiting.2 ran
        refine
          ⟨standAfter, block :: admitted, congrArg (block :: ·) order, ?_⟩
        rw [named, List.flatMap_cons, List.append_assoc]
      · rename_i full
        rw [if_neg full]
        split at ran
        · cases ran
        · cases ran
          exact ⟨stand, [], rfl, (List.append_nil _).symm⟩

/-- A dispatch leaves the last of the pending blocks. -/
theorem dispatchAll_suffix
    {prepare : SM σ → SM σ}
    {sms after : List (SM σ)}
    {pending rest : List ThreadBlock}
    (ran : dispatchAll config req prepare sms pending = .ok (after, rest)) :
    rest <:+ pending := by
  induction sms generalizing pending after with
  | nil =>
      cases ran
      exact List.suffix_refl _
  | cons sm others inductionHypothesis =>
      obtain ⟨⟨filled, middle⟩, dispatches, ran⟩ := except_bind_ok.mp ran
      obtain ⟨⟨filledOthers, last⟩, continues, returned⟩ :=
        except_bind_ok.mp ran
      cases returned
      obtain ⟨admitted, order, _⟩ := dispatch_admits dispatches
      exact (inductionHypothesis continues).trans ⟨admitted, order⟩

/-- Names beside the warps of all multiprocessors that are dispatched to. -/
theorem dispatchAll_stand
    {sms after : List (SM σ)}
    {pending rest : List ThreadBlock}
    (stand : StandAll here sms rolls)
    (waiting : ∀ block ∈ pending, Stand here block.warps block.names)
    (ran :
      dispatchAll config req (fun sm => sm) sms pending =
        .ok (after, rest)) :
    StandAll here after (dispatchAllNames config req sms rolls pending) ∧
      ((dispatchAllNames config req sms rolls pending).flatten ++
          rest.flatMap ThreadBlock.names).Perm
        (rolls.flatten ++ pending.flatMap ThreadBlock.names) := by
  induction stand generalizing pending after with
  | nil =>
      cases ran
      exact ⟨.nil, .refl _⟩
  | cons first _ inductionHypothesis =>
      rename_i sm names others otherNames _
      obtain ⟨⟨filled, middle⟩, dispatches, ran⟩ := except_bind_ok.mp ran
      obtain ⟨⟨filledOthers, last⟩, continues, returned⟩ :=
        except_bind_ok.mp ran
      cases returned
      obtain ⟨standFilled, admitted, order, named⟩ :=
        dispatch_stand first waiting dispatches
      have isMiddle : middle <:+ pending := ⟨admitted, order⟩
      obtain ⟨standOthers, same⟩ :=
        inductionHypothesis
          (fun block member => waiting block (isMiddle.subset member))
          continues
      rw [dispatchAllNames, dispatches]
      refine
        ⟨.cons standFilled standOthers,
          List.perm_iff_count.mpr fun name => ?_⟩
      have sameCount := same.count_eq name
      rw [named, ← order]
      simp only [List.flatten_cons, List.flatMap_append,
        List.count_append] at sameCount ⊢
      omega

/-- Preparing multiprocessors on the way is preparing them first. -/
theorem dispatchAll_map
    (prepare : SM σ → SM σ)
    (sms : List (SM σ))
    (pending : List ThreadBlock) :
    dispatchAll config req prepare sms pending =
      dispatchAll config req (fun sm => sm) (sms.map prepare) pending := by
  induction sms generalizing pending with
  | nil => rfl
  | cons sm others inductionHypothesis =>
      simp only [List.map_cons, dispatchAll, inductionHypothesis]

/-- A tick phase lets the agents of the issued warps take turns. -/
theorem tickSms_turns
    [WarpScheduler σ]
    [LawfulWarpScheduler σ]
    (noBarrier : kernel.NoBarrier)
    {sms after : List (SM σ)}
    (stand : StandAll here sms rolls)
    (distinct : rolls.flatten.Nodup)
    (areAgents : ∀ name ∈ rolls.flatten, name ∈ agents)
    {memoryConfig : MemoryAccessConfig}
    {l2Cache l2Cache' : Cache}
    {globalMemory globalMemory' : GlobalMemory}
    {allDone : Bool}
    (ran :
      tickSms kernel memoryConfig sms l2Cache globalMemory =
        .ok (allDone, after, l2Cache', globalMemory')) :
    ∃ there,
      TakeTurns kernel agents here globalMemory
          (tickSmsTouches kernel memoryConfig sms rolls l2Cache
            globalMemory)
          there globalMemory' ∧
        StandAll there after rolls ∧
        ∀ name, name ∉ rolls.flatten → there name = here name := by
  induction sms
      generalizing here rolls after l2Cache globalMemory allDone with
  | nil =>
      cases stand
      cases ran
      exact ⟨here, .here _ _, .nil, fun _ _ => rfl⟩
  | cons sm otherSms inductionHypothesis =>
      obtain ⟨names, otherNames, first, others, rfl⟩ :=
        List.forall₂_cons_left_iff.mp stand
      rw [List.flatten_cons] at distinct areAgents ⊢
      obtain ⟨distinctHere, distinctOthers, apart⟩ :=
        List.nodup_append.mp distinct
      have areOthers
          (name : Nat × Nat)
          (member : name ∈ otherNames.flatten) :
          name ∈ agents :=
        areAgents name (List.mem_append_right _ member)
      unfold tickSms at ran
      unfold tickSmsTouches
      split at ran
      · rename_i completed
        obtain ⟨⟨done, ticked, _, _⟩, later, returned⟩ :=
          except_bind_ok.mp ran
        cases returned
        obtain ⟨there, turns, standOthers, same⟩ :=
          inductionHypothesis others distinctOthers areOthers later
        rw [if_pos completed]
        refine
          ⟨there, turns, .cons (first.congr fun name member => ?_) standOthers,
            fun name outside => ?_⟩
        · exact same name fun isOther => apart name member name isOther rfl
        · exact
            same name fun isOther =>
              outside (List.mem_append_right _ isOther)
      · rename_i uncompleted
        obtain ⟨⟨tickedSm, l2Now, globalNow⟩, now, next⟩ :=
          except_bind_ok.mp ran
        obtain ⟨⟨_, tickedOthers, _, _⟩, later, returned⟩ :=
          except_bind_ok.mp next
        cases returned
        rw [if_neg uncompleted, now]
        obtain ⟨⟨ticked, memory'⟩, ticks, answered⟩ :=
          except_bind_ok.mp now
        cases answered
        obtain ⟨middle, turn, standTicked, sameHere⟩ :=
          SM.tick_turns noBarrier first distinctHere
            (fun name member =>
              areAgents name (List.mem_append_left _ member))
            ticks
        have othersNow : StandAll middle otherSms otherNames :=
          StandAll.congr others fun name isOther =>
            sameHere name fun member => apart name member name isOther rfl
        obtain ⟨there, turns, standOthers, same⟩ :=
          inductionHypothesis othersNow distinctOthers areOthers later
        refine
          ⟨there, turn.trans turns,
            .cons (standTicked.congr fun name member => ?_) standOthers,
            fun name outside => ?_⟩
        · exact same name fun isOther => apart name member name isOther rfl
        · rw [List.mem_append, not_or] at outside
          rw [same name outside.2, sameHere name outside.1]

/-- Every name is beside a warp, or of a block that waits, or has completed. -/
structure Seated
    (grid : Grid)
    (here : Nat × Nat → PathRun)
    (rolls : List (List (Nat × Nat)))
    (sms : List (SM σ))
    (pending : List ThreadBlock) :
    Prop where
  stand : StandAll here sms rolls
  waiting : ∀ block ∈ pending, Stand here block.warps block.names
  ofGrid : ∀ block ∈ pending, block ∈ grid.blocks
  distinct : (rolls.flatten ++ pending.flatMap ThreadBlock.names).Nodup
  known :
    ∀ name ∈ rolls.flatten ++ pending.flatMap ThreadBlock.names,
      name ∈ grid.names
  gone :
    ∀ name,
      name ∉ rolls.flatten ++ pending.flatMap ThreadBlock.names →
      (here name).completed = true

namespace Seated

variable {sms after : List (SM σ)}
variable {pending rest : List ThreadBlock}

/-- A dispatch seats the warps of its blocks. -/
theorem dispatchAll
    (seated : Seated grid here rolls sms pending)
    (ran :
      GPU.dispatchAll config req (fun sm => sm) sms pending =
        .ok (after, rest)) :
    Seated grid here (dispatchAllNames config req sms rolls pending)
      after rest := by
  obtain ⟨standAfter, same⟩ :=
    dispatchAll_stand seated.stand seated.waiting ran
  have isRest := dispatchAll_suffix ran
  exact
    { stand := standAfter
      waiting := fun block member =>
        seated.waiting block (isRest.subset member)
      ofGrid := fun block member =>
        seated.ofGrid block (isRest.subset member)
      distinct := same.nodup_iff.mpr seated.distinct
      known := fun name member => seated.known name (same.mem_iff.mp member)
      gone := fun name outside =>
        seated.gone name fun member => outside (same.mem_iff.mpr member) }

/-- A release vacates seats of completed warps only. -/
theorem release
    (seated : Seated grid here rolls sms pending) :
    Seated grid here (List.zipWith SM.retain sms rolls)
      (sms.map SM.releaseCompletedBlocks) pending := by
  have fewer := seated.stand.retain_sublist.append_right
    (pending.flatMap ThreadBlock.names)
  refine
    { stand := seated.stand.release
      waiting := seated.waiting
      ofGrid := seated.ofGrid
      distinct := seated.distinct.sublist fewer
      known := fun name member => seated.known name (fewer.subset member)
      gone := fun name outside => ?_ }
  rw [List.mem_append, not_or] at outside
  by_cases member : name ∈ rolls.flatten
  · exact seated.stand.retain_dropped member outside.1
  · refine seated.gone name ?_
    rw [List.mem_append, not_or]
    exact ⟨member, outside.2⟩

/-- Before a launch all blocks wait. -/
theorem start
    (distinct : (grid.blocks.map ThreadBlock.blockId).Nodup)
    (unstarted : grid.Unstarted)
    (sms : List (SM σ)) :
    Seated grid grid.startOf (sms.map fun _ => [])
      (sms.map SM.clearWarps) grid.blocks := by
  have nobody :
      (sms.map fun _ => ([] : List (Nat × Nat))).flatten = [] := by
    rw [List.flatten_eq_nil_iff]
    intro names member
    obtain ⟨_, _, rfl⟩ := List.mem_map.mp member
    rfl
  refine
    { stand := ?_
      waiting := fun block member => stand_start distinct unstarted member
      ofGrid := fun _ member => member
      distinct := ?_
      known := ?_
      gone := ?_ }
  · rw [StandAll, List.forall₂_map_left_iff, List.forall₂_map_right_iff,
      List.forall₂_same]
    exact fun _ _ => .nil
  · rw [nobody, List.nil_append]
    exact grid.names_nodup distinct
  · rw [nobody, List.nil_append]
    exact fun name member => List.mem_toFinset.mpr member
  · rw [nobody, List.nil_append]
    exact fun name outside =>
      Grid.startOf_outside fun member =>
        outside (List.mem_toFinset.mp member)

/-- A tick phase lets agents take turns. -/
theorem tickSms
    [WarpScheduler σ]
    [LawfulWarpScheduler σ]
    (noBarrier : kernel.NoBarrier)
    (seated : Seated grid here rolls sms pending)
    {memoryConfig : MemoryAccessConfig}
    {l2Cache l2Cache' : Cache}
    {globalMemory globalMemory' : GlobalMemory}
    {allDone : Bool}
    (ran :
      GPU.tickSms kernel memoryConfig sms l2Cache globalMemory =
        .ok (allDone, after, l2Cache', globalMemory')) :
    ∃ there,
      TakeTurns kernel grid.names here globalMemory
          (tickSmsTouches kernel memoryConfig sms rolls l2Cache
            globalMemory)
          there globalMemory' ∧
        Seated grid there rolls after pending := by
  obtain ⟨distinct, _, apart⟩ := List.nodup_append.mp seated.distinct
  obtain ⟨there, turns, standAfter, same⟩ :=
    tickSms_turns noBarrier seated.stand distinct
      (fun name member =>
        seated.known name (List.mem_append_left _ member))
      ran
  refine
    ⟨there, turns,
      { stand := standAfter
        waiting := fun block member => ?_
        ofGrid := seated.ofGrid
        distinct := seated.distinct
        known := seated.known
        gone := fun name outside => ?_ }⟩
  · refine (seated.waiting block member).congr fun name isName => ?_
    refine same name fun inRolls => ?_
    exact
      apart name inRolls name
        (List.mem_flatMap.mpr ⟨block, member, isName⟩) rfl
  · rw [same name fun inRolls => outside (List.mem_append_left _ inRolls)]
    exact seated.gone name outside

end Seated

/-! ## No block is left behind -/

/-- A multiprocessor to which blocks are charged has a warp to run. -/
def Busy (sm : SM σ) : Prop :=
  sm.allocatedBlocks ≠ 0 → ∃ warp ∈ sm.warps, warp.state ≠ .completed

/-- After a release every charged block has a warp to run. -/
theorem busy_release
    {sm : SM σ}
    (charged : sm.Charged sm.residentBlocks) :
    Busy sm.releaseCompletedBlocks := by
  intro occupied
  rw [charged.release.count] at occupied
  obtain ⟨block, rest, shape⟩ :=
    List.exists_cons_of_length_pos (Nat.pos_of_ne_zero occupied)
  have isResident :
      block ∈ sm.releaseCompletedBlocks.residentBlocks := by
    rw [shape]
    exact List.mem_cons_self
  rw [SM.releaseCompletedBlocks_eq] at isResident ⊢
  have unfinished := (SM.mem_unfinishedBlocks.mp isResident).2
  obtain ⟨warp, member, ofBlock, running⟩ :=
    SM.allCompleted_eq_false.mp unfinished
  refine ⟨warp, List.mem_filter.mpr ⟨member, ?_⟩, running⟩
  rw [Bool.not_eq_true', List.any_eq_false]
  intro other isFinished belongs
  have completed := (SM.mem_finishedBlocks.mp isFinished).2
  rw [SM.belongsTo, ofBlock, beq_iff_eq, Option.some.injEq] at belongs
  rw [belongs, completed] at unfinished
  cases unfinished

/-- What a dispatch leaves behind: warps to run where a block did not fit. -/
structure Filled (sm : SM σ) (rest : List ThreadBlock) : Prop where
  charged : sm.Charged sm.residentBlocks
  busy : Busy sm
  full : rest = [] ∨ sm.allocatedBlocks ≠ 0

/-- A dispatch fills a multiprocessor. -/
theorem dispatch_filled
    {sm after : SM σ}
    {pending rest : List ThreadBlock}
    (charged : sm.Charged sm.residentBlocks)
    (busy : Busy sm)
    (runs :
      ∀ block ∈ pending, ∃ warp ∈ block.warps, warp.state ≠ .completed)
    (ran : dispatch config req sm pending = .ok (after, rest)) :
    Filled after rest := by
  induction pending generalizing sm with
  | nil =>
      cases ran
      exact ⟨charged, busy, Or.inl rfl⟩
  | cons block blocks inductionHypothesis =>
      rw [List.forall_mem_cons] at runs
      rw [dispatch] at ran
      split at ran
      · refine inductionHypothesis (charged.allocate block req) ?_ runs.2 ran
        intro _
        obtain ⟨warp, member, running⟩ := runs.1
        rw [(SM.allocateBlock_admits sm block req).warps]
        exact ⟨warp, List.mem_append_right _ member, running⟩
      · split at ran
        · cases ran
        · rename_i occupied
          cases ran
          exact ⟨charged, busy, Or.inr occupied⟩

/-- A dispatch to all multiprocessors fills each of them. -/
theorem dispatchAll_filled
    {sms after : List (SM σ)}
    {pending rest : List ThreadBlock}
    (charged : ∀ sm ∈ sms, sm.Charged sm.residentBlocks)
    (busy : ∀ sm ∈ sms, Busy sm)
    (runs :
      ∀ block ∈ pending, ∃ warp ∈ block.warps, warp.state ≠ .completed)
    (ran :
      dispatchAll config req (fun sm => sm) sms pending =
        .ok (after, rest)) :
    ∀ sm ∈ after, Filled sm rest := by
  induction sms generalizing pending after with
  | nil =>
      cases ran
      exact nofun
  | cons sm others inductionHypothesis =>
      rw [List.forall_mem_cons] at charged busy
      obtain ⟨⟨filled, middle⟩, dispatches, ran⟩ := except_bind_ok.mp ran
      obtain ⟨⟨filledOthers, last⟩, continues, returned⟩ :=
        except_bind_ok.mp ran
      cases returned
      have here := dispatch_filled charged.1 busy.1 runs dispatches
      obtain ⟨admitted, order, _⟩ := dispatch_admits dispatches
      have isMiddle : middle <:+ pending := ⟨admitted, order⟩
      refine List.forall_mem_cons.mpr ⟨⟨here.charged, here.busy, ?_⟩, ?_⟩
      · refine here.full.imp_left fun none => ?_
        rw [none] at continues
        exact List.suffix_nil.mp (dispatchAll_suffix continues)
      · exact
          inductionHypothesis charged.2 busy.2
            (fun block member => runs block (isMiddle.subset member))
            continues

/-- Where all blocks have a warp to run and every warp has completed. -/
theorem Filled.rest_nil
    {sm : SM σ}
    {rest : List ThreadBlock}
    (filled : Filled sm rest)
    (completed : sm.isCompleted = true) :
    rest = [] := by
  refine filled.full.resolve_right fun occupied => ?_
  obtain ⟨warp, member, running⟩ := filled.busy occupied
  exact running (SM.completed_of_isCompleted completed member)

/-- A load prepares all multiprocessors and dispatches to them. -/
theorem loadBlocks_dispatches
    {gpu after : GPU σ}
    {prepare : SM σ → SM σ}
    (ran : gpu.loadBlocks prepare = .ok after) :
    dispatchAll gpu.config gpu.req (fun sm => sm) (gpu.sms.map prepare)
          gpu.remaining =
        .ok (after.sms, after.remaining) ∧
      after.globalMemory = gpu.globalMemory := by
  obtain ⟨⟨sms, rest⟩, dispatches, returned⟩ := except_bind_ok.mp ran
  cases returned
  rw [dispatchAll_map] at dispatches
  refine ⟨?_, rfl⟩
  obtain ⟨earlier, order⟩ :=
    (dispatchAll_suffix dispatches).trans (List.drop_suffix _ _)
  rw [remaining_after order]
  exact dispatches

/-! ## Runs -/

/-- Between iterations every warp is seated and every block is charged. -/
structure Manned
    (grid : Grid)
    (here : Nat × Nat → PathRun)
    (rolls : List (List (Nat × Nat)))
    (gpu : GPU σ) :
    Prop where
  seated : Seated grid here rolls gpu.sms gpu.remaining
  charged : ∀ sm ∈ gpu.sms, sm.Charged sm.residentBlocks

/-- A tick phase charges nothing. -/
theorem Ticks.charged
    [WarpScheduler σ]
    {before after : SM σ}
    (ticks : Ticks kernel before after)
    (charged : before.Charged before.residentBlocks) :
    after.Charged after.residentBlocks := by
  rcases ticks with ⟨rfl, _⟩ | ⟨_, _, _, ticked, ran, rfl⟩
  · exact charged
  · have now := charged.tick ran
    exact
      ⟨now.count, now.warps, now.threads, now.registers, now.sharedMemory⟩

section Runs

variable {gpu after : GPU σ}

/-- A launch seats the warps of the first blocks. -/
theorem launchKernel_manned
    (distinct : (grid.blocks.map ThreadBlock.blockId).Nodup)
    (unstarted : grid.Unstarted)
    (runs :
      ∀ block ∈ grid.blocks, ∃ warp ∈ block.warps, warp.state ≠ .completed)
    (ran : gpu.launchKernel grid config req = .ok after) :
    Manned grid grid.startOf (gpu.launchNames grid config req) after ∧
      after.globalMemory = gpu.globalMemory := by
  obtain ⟨dispatches, sameMemory⟩ := loadBlocks_dispatches ran
  have vacant :
      ∀ sm ∈ gpu.sms.map SM.clearWarps, sm.Vacant := by
    intro sm member
    obtain ⟨before, _, rfl⟩ := List.mem_map.mp member
    exact before.clearWarps_vacant
  have filled :=
    dispatchAll_filled
      (fun sm member => (vacant sm member).charged)
      (fun sm member occupied =>
        (occupied (vacant sm member).allocatedBlocks).elim)
      runs dispatches
  exact
    ⟨⟨(Seated.start distinct unstarted gpu.sms).dispatchAll dispatches,
        fun sm member => (filled sm member).charged⟩,
      sameMemory⟩

/-- A refill seats more warps, and fills every multiprocessor. -/
theorem Manned.refill
    (runs :
      ∀ block ∈ grid.blocks, ∃ warp ∈ block.warps, warp.state ≠ .completed)
    (manned : Manned grid here rolls gpu)
    (ran : gpu.refill = .ok after) :
    Seated grid here (gpu.refillNames rolls) after.sms after.remaining ∧
      (∀ sm ∈ after.sms, Filled sm after.remaining) ∧
      after.globalMemory = gpu.globalMemory := by
  obtain ⟨dispatches, sameMemory⟩ := loadBlocks_dispatches ran
  refine
    ⟨manned.seated.release.dispatchAll dispatches,
      dispatchAll_filled (fun sm member => ?_) (fun sm member => ?_)
        (fun block member => runs block (manned.seated.ofGrid block member))
        dispatches,
      sameMemory⟩
  · obtain ⟨before, isBefore, rfl⟩ := List.mem_map.mp member
    exact (manned.charged before isBefore).release
  · obtain ⟨before, isBefore, rfl⟩ := List.mem_map.mp member
    exact busy_release (manned.charged before isBefore)

/--
An iteration lets agents take turns; when it ends the run, all of them have
completed.
-/
theorem Manned.iterate
    [WarpScheduler σ]
    [LawfulWarpScheduler σ]
    (noBarrier : kernel.NoBarrier)
    (runs :
      ∀ block ∈ grid.blocks, ∃ warp ∈ block.warps, warp.state ≠ .completed)
    (manned : Manned grid here rolls gpu)
    {allDone : Bool}
    (ran : gpu.iterate kernel = .ok (allDone, after)) :
    ∃ there,
      TakeTurns kernel grid.names here gpu.globalMemory
          (gpu.iterateTouches kernel rolls) there after.globalMemory ∧
        Manned grid there (gpu.refillNames rolls) after ∧
        after.sms.length = gpu.sms.length ∧
        (allDone = true →
          0 < gpu.sms.length →
          ∀ name, (there name).completed = true) := by
  obtain ⟨refilled, refills, ran⟩ := except_bind_ok.mp ran
  obtain ⟨⟨done, sms, l2Cache, globalMemory⟩, ticks, returned⟩ :=
    except_bind_ok.mp ran
  cases returned
  obtain ⟨seated, filled, sameMemory⟩ := manned.refill runs refills
  obtain ⟨there, turns, seatedAfter⟩ := seated.tickSms noBarrier ticks
  obtain ⟨pointwise, completed⟩ := tickSms_ok ticks
  have sameCount : gpu.sms.length = refilled.sms.length :=
    (loadBlocks_loads refills).2.2.length_eq
  unfold iterateTouches
  rw [refills, ← sameMemory]
  refine
    ⟨there, turns, ⟨seatedAfter, fun sm member => ?_⟩,
      (sameCount.trans pointwise.length_eq).symm, ?_⟩
  · obtain ⟨smId, found⟩ := List.mem_iff_getElem?.mp member
    obtain ⟨before, foundBefore, tick⟩ := Pointwise.origin pointwise found
    exact
      tick.charged
        (filled before (List.mem_of_getElem? foundBefore)).charged
  · rintro rfl positive name
    have isCompleted :
        ∀ sm ∈ sms, sm.isCompleted = true := by
      intro sm member
      obtain ⟨smId, found⟩ := List.mem_iff_getElem?.mp member
      obtain ⟨before, foundBefore, tick⟩ :=
        Pointwise.origin pointwise found
      have stopped :=
        completed rfl before (List.mem_of_getElem? foundBefore)
      rcases tick with ⟨rfl, _⟩ | ⟨uncompleted, _⟩
      · exact stopped
      · rw [stopped] at uncompleted
        cases uncompleted
    have none : refilled.remaining = [] := by
      obtain ⟨sm, rest, shape⟩ :=
        List.exists_cons_of_length_pos (sameCount ▸ positive)
      have member : sm ∈ refilled.sms := by
        rw [shape]
        exact List.mem_cons_self
      exact (filled sm member).rest_nil (completed rfl sm member)
    by_cases member : name ∈ (gpu.refillNames rolls).flatten
    · exact seatedAfter.stand.completed isCompleted member
    · refine seatedAfter.gone name ?_
      rw [none, List.flatMap_nil, List.append_nil]
      exact member

/-- A run lets agents take turns until all of them have completed. -/
theorem Manned.runToCompletion
    [WarpScheduler σ]
    [LawfulWarpScheduler σ]
    (noBarrier : kernel.NoBarrier)
    (runs :
      ∀ block ∈ grid.blocks, ∃ warp ∈ block.warps, warp.state ≠ .completed)
    (manned : Manned grid here rolls gpu)
    (positive : 0 < gpu.sms.length)
    {fuel : Nat}
    (ran : gpu.runToCompletion kernel fuel = some (.ok after)) :
    ∃ there,
      TakeTurns kernel grid.names here gpu.globalMemory
          (gpu.runTouches kernel fuel rolls) there after.globalMemory ∧
        ∀ name, (there name).completed = true := by
  induction fuel generalizing here rolls gpu with
  | zero => cases ran
  | succ fuel inductionHypothesis =>
      rw [GPU.runToCompletion] at ran
      rw [runTouches]
      cases iterates : gpu.iterate kernel with
      | error error =>
          rw [iterates] at ran
          cases ran
      | ok pair =>
          obtain ⟨allDone, middle⟩ := pair
          rw [iterates] at ran
          obtain ⟨there, turns, mannedMiddle, sameCount, ended⟩ :=
            manned.iterate noBarrier runs iterates
          cases allDone with
          | true =>
              cases ran
              dsimp only
              rw [List.append_nil]
              exact ⟨there, turns, ended rfl positive⟩
          | false =>
              obtain ⟨finish, more, completed⟩ :=
                inductionHypothesis mannedMiddle (sameCount ▸ positive) ran
              exact ⟨finish, turns.trans more, completed⟩

/--
A launch and a run that return normally let the agents of the grid take turns
until all of them have completed, whatever ids the threads carry.
-/
theorem launchAndRun_turns
    [WarpScheduler σ]
    [LawfulWarpScheduler σ]
    (distinct : (grid.blocks.map ThreadBlock.blockId).Nodup)
    (nonempty : ∀ block ∈ grid.blocks, block.warps ≠ [])
    (unstarted : grid.Unstarted)
    (noBarrier : kernel.NoBarrier)
    (someSms : gpu.sms ≠ [])
    {fuel : Nat}
    (ran :
      gpu.launchAndRun grid config req kernel fuel = some (.ok after)) :
    ∃ finish,
      TakeTurns kernel grid.names grid.startOf gpu.globalMemory
          (gpu.launchAndRunTouches grid config req kernel fuel) finish
          after.globalMemory ∧
        ∀ name, (finish name).completed = true := by
  have runs :
      ∀ block ∈ grid.blocks,
        ∃ warp ∈ block.warps, warp.state ≠ .completed := by
    intro block isBlock
    obtain ⟨warp, member⟩ :=
      List.exists_mem_of_ne_nil _ (nonempty block isBlock)
    exact ⟨warp, member, unstarted block isBlock warp member⟩
  obtain ⟨launched, launches, ran⟩ := launchAndRun_ok ran
  obtain ⟨manned, sameMemory⟩ :=
    launchKernel_manned distinct unstarted runs launches
  have sameCount : gpu.sms.length = launched.sms.length :=
    (loadBlocks_loads launches).2.2.length_eq
  unfold launchAndRunTouches
  rw [launches, ← sameMemory]
  exact
    manned.runToCompletion noBarrier runs
      (sameCount ▸ List.length_pos_of_ne_nil someSms) ran

end Runs

end GPU

end SimSm
