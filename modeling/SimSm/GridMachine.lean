import SimSm.Dispatch
import SimSm.MemoryPaths

namespace SimSm

/-!
# The grid machine

What a launch and a run do to the blocks of a grid, whatever the policy, the
caches and the limits: blocks are dispatched and retired, time passes, and
single warps issue.  Every run of the GPU is one of this machine.
-/

open Interleaving Outcome

/-- Where a block is. -/
inductive BlockStage where
  | pending
  | resident (smId : Nat) (warps : List Warp)
  | retired (smId : Nat)

/-- Time passes for the warps of a block. -/
inductive BlockStage.Waits : BlockStage → BlockStage → Prop where
  | pending : Waits .pending .pending
  | resident
      {smId : Nat}
      {warps later : List Warp}
      (waited : List.Forall₂ Waited warps later) :
      Waits (.resident smId warps) (.resident smId later)
  | retired (smId : Nat) : Waits (.retired smId) (.retired smId)

/-- The blocks of a grid by id, and the memories. -/
structure GridState where
  stage : Nat → BlockStage
  shared : Nat → SharedMemory
  globalMemory : GlobalMemory

namespace GridState

/-- The data that the warps of one multiprocessor see. -/
def view (state : GridState) (smId : Nat) : Nat → Word :=
  dataView (state.shared smId) state.globalMemory

/-- The state with a block at another stage. -/
def setStage
    (state : GridState)
    (blockId : Nat)
    (stage : BlockStage) :
    GridState :=
  { state with stage := Function.update state.stage blockId stage }

@[simp] theorem setStage_self
    (state : GridState)
    (blockId : Nat)
    (stage : BlockStage) :
    (state.setStage blockId stage).stage blockId = stage :=
  Function.update_self _ _ _

theorem setStage_of_ne
    {other blockId : Nat}
    (elsewhere : other ≠ blockId)
    (state : GridState)
    (stage : BlockStage) :
    (state.setStage blockId stage).stage other = state.stage other :=
  Function.update_of_ne elsewhere _ _

/-- A step of the grid machine. -/
inductive Step
    (kernel : Kernel)
    (grid : Grid)
    (numSms : Nat) :
    GridState → GridState → Prop where
  | dispatch
      {state : GridState}
      {block : ThreadBlock}
      {smId : Nat}
      (member : block ∈ grid.blocks)
      (isPending : state.stage block.blockId = .pending)
      (inside : smId < numSms) :
      Step kernel grid numSms state
        (state.setStage block.blockId (.resident smId block.warps))
  | retire
      {state : GridState}
      {blockId smId : Nat}
      {warps : List Warp}
      (isResident : state.stage blockId = .resident smId warps)
      (completed : ∀ warp ∈ warps, warp.state = .completed) :
      Step kernel grid numSms state
        (state.setStage blockId (.retired smId))
  | wait
      {state : GridState}
      {stage : Nat → BlockStage}
      (waits : ∀ blockId, (state.stage blockId).Waits (stage blockId)) :
      Step kernel grid numSms state { state with stage := stage }
  | issue
      {state : GridState}
      {blockId smId position : Nat}
      {warps after : List Warp}
      {warp : Warp}
      {memory memory' : MemorySystem}
      (isResident : state.stage blockId = .resident smId warps)
      (ofBlock : ∀ warp ∈ warps, warp.blockId? = some blockId)
      (found : warps[position]? = some warp)
      (ready : warp.state = .ready)
      (sharedBefore : memory.sharedMemory = state.shared smId)
      (globalBefore : memory.globalMemory = state.globalMemory)
      (issued :
        SM.IssueStep kernel warps position warp memory after memory') :
      Step kernel grid numSms state
        { stage :=
            Function.update state.stage blockId (.resident smId after)
          shared :=
            Function.update state.shared smId memory'.sharedMemory
          globalMemory := memory'.globalMemory }

/-- Several steps of the grid machine. -/
abbrev Steps
    (kernel : Kernel)
    (grid : Grid)
    (numSms : Nat) :
    GridState → GridState → Prop :=
  Relation.ReflTransGen (Step kernel grid numSms)

/-- The invariant rule: what every step keeps, holds after any number of steps. -/
theorem Steps.invariant
    {kernel : Kernel}
    {grid : Grid}
    {numSms : Nat}
    {first last : GridState}
    {Invariant : GridState → Prop}
    (keeps :
      ∀ {before after : GridState},
        Step kernel grid numSms before after →
        Invariant before →
        Invariant after)
    (steps : Steps kernel grid numSms first last)
    (initially : Invariant first) :
    Invariant last := by
  induction steps with
  | refl => exact initially
  | tail _ step inductionHypothesis => exact keeps step inductionHypothesis

end GridState

/-! ## One block of a multiprocessor -/

namespace SM

variable {blockId : Nat}
variable {warps : List Warp}

/-- The warps of a block among the warps of a multiprocessor. -/
def ofBlock (blockId : Nat) (warps : List Warp) : List Warp :=
  warps.filter fun warp => belongsTo warp blockId

/-- The position of a warp among the warps of a block. -/
def positionIn (blockId : Nat) (warps : List Warp) (index : Nat) : Nat :=
  (ofBlock blockId (warps.take index)).length

/-- The warps of a block from one that belongs to it on. -/
theorem ofBlock_split
    {index : Nat}
    {warp : Warp}
    (found : warps[index]? = some warp)
    (belongs : belongsTo warp blockId = true) :
    ofBlock blockId warps =
      ofBlock blockId (warps.take index) ++
        warp :: ofBlock blockId (warps.drop (index + 1)) := by
  obtain ⟨inside, atIndex⟩ := List.getElem?_eq_some_iff.mp found
  have split :
      warps = warps.take index ++ warp :: warps.drop (index + 1) := by
    rw [← atIndex, List.getElem_cons_drop, List.take_append_drop]
  rw [ofBlock, split, List.filter_append, List.filter_cons,
    if_pos belongs, ← split]
  rfl

/-- A warp stands in its block at its position. -/
theorem ofBlock_position
    {index : Nat}
    {warp : Warp}
    (found : warps[index]? = some warp)
    (belongs : belongsTo warp blockId = true) :
    (ofBlock blockId warps)[positionIn blockId warps index]? =
      some warp := by
  rw [ofBlock_split found belongs, positionIn,
    List.getElem?_append_right (Nat.le_refl _), Nat.sub_self]
  rfl

/-- Writing a warp of the block writes it at its position in the block. -/
theorem ofBlock_set
    {index : Nat}
    {warp written : Warp}
    (found : warps[index]? = some warp)
    (belongs : belongsTo warp blockId = true)
    (stays : belongsTo written blockId = true) :
    ofBlock blockId (warps.set index written) =
      (ofBlock blockId warps).set (positionIn blockId warps index)
        written := by
  obtain ⟨inside, _⟩ := List.getElem?_eq_some_iff.mp found
  have foundWritten :
      (warps.set index written)[index]? = some written :=
    List.getElem?_set_self inside
  rw [ofBlock_split foundWritten stays, ofBlock_split found belongs,
    List.take_set_of_le (Nat.le_refl index),
    List.drop_set_of_lt (Nat.lt_succ_self index), positionIn,
    List.set_append_right _ _ (Nat.le_refl _), Nat.sub_self,
    List.set_cons_zero]

/-- Writing a warp of another block leaves the block as it is. -/
theorem ofBlock_set_other
    {index : Nat}
    {warp written : Warp}
    (found : warps[index]? = some warp)
    (other : belongsTo warp blockId = false)
    (stays : belongsTo written blockId = false) :
    ofBlock blockId (warps.set index written) = ofBlock blockId warps := by
  obtain ⟨inside, atIndex⟩ := List.getElem?_eq_some_iff.mp found
  have split :
      warps = warps.take index ++ warp :: warps.drop (index + 1) := by
    rw [← atIndex, List.getElem_cons_drop, List.take_append_drop]
  rw [ofBlock, ofBlock, List.set_eq_take_append_cons_drop, if_pos inside,
    List.filter_append, List.filter_cons, if_neg (by simp [stays])]
  conv_rhs => rw [split]
  rw [List.filter_append, List.filter_cons, if_neg (by simp [other])]

/-- A position of the block other than that of a warp is another warp's. -/
theorem ofBlock_other
    {index position : Nat}
    {warp other : Warp}
    (found : warps[index]? = some warp)
    (belongs : belongsTo warp blockId = true)
    (elsewhere : position ≠ positionIn blockId warps index)
    (foundOther : (ofBlock blockId warps)[position]? = some other) :
    ∃ origin, origin ≠ index ∧ warps[origin]? = some other := by
  rw [ofBlock_split found belongs] at foundOther
  by_cases before : position < positionIn blockId warps index
  · rw [List.getElem?_append_left before] at foundOther
    have isBefore := List.mem_of_mem_filter (List.mem_of_getElem? foundOther)
    obtain ⟨origin, foundOrigin⟩ := List.mem_iff_getElem?.mp isBefore
    rw [List.getElem?_take] at foundOrigin
    split at foundOrigin
    · rename_i earlier
      exact ⟨origin, Nat.ne_of_lt earlier, foundOrigin⟩
    · cases foundOrigin
  · rw [List.getElem?_append_right (Nat.not_lt.mp before)] at foundOther
    have later :
        position - (ofBlock blockId (warps.take index)).length =
          position - positionIn blockId warps index - 1 + 1 := by
      change position - positionIn blockId warps index = _
      omega
    rw [later, List.getElem?_cons_succ] at foundOther
    have isAfter := List.mem_of_mem_filter (List.mem_of_getElem? foundOther)
    obtain ⟨origin, foundOrigin⟩ := List.mem_iff_getElem?.mp isAfter
    rw [List.getElem?_drop] at foundOrigin
    exact ⟨index + 1 + origin, by omega, foundOrigin⟩

/-- Another warp of the block has another position in it. -/
theorem other_ofBlock
    {index origin : Nat}
    {warp other : Warp}
    (found : warps[index]? = some warp)
    (belongs : belongsTo warp blockId = true)
    (elsewhere : origin ≠ index)
    (foundOther : warps[origin]? = some other)
    (otherBelongs : belongsTo other blockId = true) :
    ∃ position,
      position ≠ positionIn blockId warps index ∧
        (ofBlock blockId warps)[position]? = some other := by
  rw [ofBlock_split found belongs]
  rcases Nat.lt_or_gt_of_ne elsewhere with earlier | later
  · have isBefore : other ∈ ofBlock blockId (warps.take index) := by
      refine List.mem_filter.mpr ⟨?_, otherBelongs⟩
      rw [List.mem_iff_getElem?]
      refine ⟨origin, ?_⟩
      rw [List.getElem?_take, if_pos earlier]
      exact foundOther
    obtain ⟨position, foundPosition⟩ := List.mem_iff_getElem?.mp isBefore
    have inside := (List.getElem?_eq_some_iff.mp foundPosition).1
    refine ⟨position, Nat.ne_of_lt inside, ?_⟩
    rw [List.getElem?_append_left inside]
    exact foundPosition
  · have isAfter : other ∈ ofBlock blockId (warps.drop (index + 1)) := by
      refine List.mem_filter.mpr ⟨?_, otherBelongs⟩
      rw [List.mem_iff_getElem?]
      refine ⟨origin - (index + 1), ?_⟩
      rw [List.getElem?_drop]
      have position : index + 1 + (origin - (index + 1)) = origin := by
        omega
      rw [position]
      exact foundOther
    obtain ⟨position, foundPosition⟩ := List.mem_iff_getElem?.mp isAfter
    refine ⟨positionIn blockId warps index + (position + 1), by omega, ?_⟩
    rw [positionIn, List.getElem?_append_right (Nat.le_add_right _ _),
      Nat.add_sub_cancel_left]
    exact foundPosition

/-- Releasing warps keeps the warps of a block together. -/
theorem ofBlock_map_releaseFrom
    (blockId released cycle : Nat)
    (warps : List Warp) :
    ofBlock blockId (warps.map (Warp.releaseFrom released cycle)) =
      (ofBlock blockId warps).map (Warp.releaseFrom released cycle) := by
  rw [ofBlock, List.filter_map, ofBlock]
  congr 1
  apply List.filter_congr
  intro warp _
  simp only [Function.comp_apply, belongsTo,
    (releaseFrom_core released cycle warp).blockId?]

/-- Belonging to a block is a matter of identity. -/
theorem belongsTo_of_identity
    {before after : Warp}
    (same : after.identity = before.identity)
    (blockId : Nat) :
    belongsTo after blockId = belongsTo before blockId := by
  rw [belongsTo, belongsTo, Warp.blockId?_of_identity same]

section OfBlock

variable {kernel : Kernel}
variable {index : Nat}
variable {warp : Warp}

/-- Writing a warp that keeps its identity writes it in its block alone. -/
theorem ofBlock_written
    {written : Warp}
    (found : warps[index]? = some warp)
    (inBlock : warp.blockId? = some blockId)
    (same : written.identity = warp.identity) :
    ofBlock blockId (warps.set index written) =
        (ofBlock blockId warps).set (positionIn blockId warps index)
          written ∧
      ∀ other,
        other ≠ blockId →
        ofBlock other (warps.set index written) = ofBlock other warps := by
  have belongs : belongsTo warp blockId = true := by
    simp [belongsTo, inBlock]
  refine ⟨ofBlock_set found belongs ?_, fun other isOther => ?_⟩
  · rw [belongsTo_of_identity same, belongs]
  · have notOther : belongsTo warp other = false := by
      simp [belongsTo, inBlock, Ne.symm isOther]
    refine ofBlock_set_other found notOther ?_
    rw [belongsTo_of_identity same, notOther]

/-- Releasing a block leaves the warps of the other blocks as they are. -/
theorem ofBlock_release_other
    {other : Nat}
    (isOther : other ≠ blockId)
    (cycle : Nat)
    (warps : List Warp) :
    ofBlock other (warps.map (Warp.releaseFrom blockId cycle)) =
      ofBlock other warps := by
  rw [ofBlock_map_releaseFrom]
  have alone :
      ∀ member ∈ ofBlock other warps,
        member.releaseFrom blockId cycle = id member := by
    intro member isMember
    apply Warp.releaseFrom_elsewhere
    have belongsOther := (List.mem_filter.mp isMember).2
    rw [belongsTo, beq_iff_eq] at belongsOther
    rw [belongsOther]
    simpa using isOther
  rw [List.map_congr_left alone, List.map_id]

/-- Releasing a block and writing one of its warps does so in the block alone. -/
theorem ofBlock_released
    {freed : Warp}
    (found : warps[index]? = some warp)
    (inBlock : warp.blockId? = some blockId)
    (cycle : Nat)
    (same : freed.identity = warp.identity) :
    ofBlock blockId
          ((warps.map (Warp.releaseFrom blockId cycle)).set index freed) =
        ((ofBlock blockId warps).map (Warp.releaseFrom blockId cycle)).set
          (positionIn blockId warps index) freed ∧
      ∀ other,
        other ≠ blockId →
        ofBlock other
            ((warps.map (Warp.releaseFrom blockId cycle)).set index freed) =
          ofBlock other warps := by
  have foundMapped :
      (warps.map (Warp.releaseFrom blockId cycle))[index]? =
        some (warp.releaseFrom blockId cycle) := by
    rw [List.getElem?_map, found]
    rfl
  have core := releaseFrom_core blockId cycle warp
  obtain ⟨here, elsewhere⟩ :=
    ofBlock_written foundMapped (core.blockId?.trans inBlock)
      (same.trans core.identity.symm)
  have samePosition :
      positionIn blockId (warps.map (Warp.releaseFrom blockId cycle))
          index =
        positionIn blockId warps index := by
    rw [positionIn, ← List.map_take, ofBlock_map_releaseFrom,
      List.length_map, positionIn]
  constructor
  · rw [here, ofBlock_map_releaseFrom, samePosition]
  · intro other isOther
    rw [elsewhere other isOther, ofBlock_release_other isOther]

/-- Another warp of the block that runs does so in the block. -/
theorem otherRuns_ofBlock
    (found : warps[index]? = some warp)
    (belongs : belongsTo warp blockId = true)
    (otherRuns : OtherRuns warps index blockId) :
    OtherRuns (ofBlock blockId warps) (positionIn blockId warps index)
      blockId := by
  obtain ⟨origin, other, isOther, foundOther, otherBelongs, running⟩ :=
    otherRuns
  obtain ⟨position, distinct, foundPosition⟩ :=
    other_ofBlock found belongs isOther foundOther otherBelongs
  exact ⟨position, other, distinct, foundPosition, otherBelongs, running⟩

/-- The other warps of the block that wait do so in the block. -/
theorem othersWait_ofBlock
    (found : warps[index]? = some warp)
    (belongs : belongsTo warp blockId = true)
    (othersWait : OthersWait warps index blockId) :
    OthersWait (ofBlock blockId warps) (positionIn blockId warps index)
      blockId := by
  intro position other elsewhere foundOther otherBelongs
  obtain ⟨origin, isOther, foundOrigin⟩ :=
    ofBlock_other found belongs elsewhere foundOther
  exact othersWait origin other isOther foundOrigin otherBelongs

/-- Issuing a warp of a multiprocessor issues it in its block alone. -/
theorem IssueStep.ofBlock
    {after : List Warp}
    {memory memory' : MemorySystem}
    (step : IssueStep kernel warps index warp memory after memory')
    (found : warps[index]? = some warp)
    (inBlock : warp.blockId? = some blockId) :
    IssueStep kernel (ofBlock blockId warps)
        (positionIn blockId warps index) warp memory
        (SM.ofBlock blockId after) memory' ∧
      ∀ other,
        other ≠ blockId →
        SM.ofBlock other after = SM.ofBlock other warps := by
  have belongs : belongsTo warp blockId = true := by
    simp [belongsTo, inBlock]
  have block
      {executed : Warp}
      (same : executed.identity = warp.identity) :
      executed.blockId?.getD 0 = blockId := by
    rw [Warp.blockId?_of_identity same, inBlock]
    rfl
  cases step with
  | pastEnd outside =>
      obtain ⟨here, elsewhere⟩ :=
        @ofBlock_written blockId warps index warp warp.setCompleted found
          inBlock rfl
      rw [here]
      exact ⟨.pastEnd outside, elsewhere⟩
  | executed fetched ran notBarrier =>
      rename_i inst result executed
      have same := (InstructionExecutor.execute_ok ran).shell.identity
      obtain ⟨here, elsewhere⟩ :=
        ofBlock_written found inBlock
          ((settle_identity kernel result executed).trans same)
      rw [here]
      exact ⟨.executed fetched ran notBarrier, elsewhere⟩
  | waits fetched ran barrier otherRuns =>
      rename_i inst result executed
      have same := (InstructionExecutor.execute_ok ran).shell.identity
      obtain ⟨here, elsewhere⟩ :=
        ofBlock_written found inBlock
          ((settle_identity kernel result
            executed.setStalledAtBarrier).trans same)
      rw [here]
      refine ⟨.waits fetched ran barrier ?_, elsewhere⟩
      rw [block same] at otherRuns ⊢
      exact otherRuns_ofBlock found belongs otherRuns
  | released cycle fetched ran barrier othersWait =>
      rename_i inst result executed
      have same := (InstructionExecutor.execute_ok ran).shell.identity
      have sameFreed :
          (settle kernel result
              (executed.setStalledAtBarrier.releaseFrom blockId
                cycle)).identity =
            warp.identity := by
        rw [settle_identity, (releaseFrom_core _ cycle _).identity]
        exact same
      rw [block same] at othersWait ⊢
      obtain ⟨here, elsewhere⟩ :=
        ofBlock_released found inBlock cycle sameFreed
      rw [here]
      have waits := othersWait_ofBlock found belongs othersWait
      rw [← block same] at waits
      have released := IssueStep.released cycle fetched ran barrier waits
      rw [block same] at released
      exact ⟨released, elsewhere⟩

end OfBlock

/-- Allocating a block leaves the shared memory as it is. -/
theorem allocateBlock_sharedMemory
    {σ : Type}
    (sm : SM σ)
    (block : ThreadBlock)
    (req : KernelResourceRequirements) :
    (sm.allocateBlock block req).sharedMemory = sm.sharedMemory := by
  have added
      (warps : List Warp)
      (start : SM σ) :
      (warps.foldl
          (fun sm warp =>
            let added := sm.addWarp warp
            { added with
              counters :=
                added.counters.initializeWarpIssueCount warp.warpId })
          start).sharedMemory =
        start.sharedMemory := by
    induction warps generalizing start with
    | nil => rfl
    | cons warp rest inductionHypothesis => exact inductionHypothesis _
  exact added block.warps _

end SM

/-! ## What the machine shows of a multiprocessor -/

/-- The block with the warps of a multiprocessor, when it is resident there. -/
def BlockStage.on
    (smId : Nat)
    (warps : List Warp) :
    BlockStage → BlockStage
  | .pending => .pending
  | .resident other before =>
      if other = smId then .resident smId warps else .resident other before
  | .retired other => .retired other

namespace GridState

variable {σ : Type}

/-- The machine shows the blocks and the memory of one multiprocessor. -/
structure Shows
    (grid : Grid)
    (req : KernelResourceRequirements)
    (state : GridState)
    (smId : Nat)
    (sm : SM σ) :
    Prop where
  shared : state.shared smId = sm.sharedMemory
  houses :
    ∃ resident : List ThreadBlock,
      (∀ block ∈ resident, block ∈ grid.blocks) ∧
        SM.Houses sm (resident.map fun block => (block, req))
  stage :
    ∀ blockId ∈ sm.residentBlocks.map ResidentBlock.blockId,
      state.stage blockId = .resident smId (SM.ofBlock blockId sm.warps)
  resident :
    ∀ blockId warps,
      state.stage blockId = .resident smId warps →
      blockId ∈ sm.residentBlocks.map ResidentBlock.blockId

/-- The blocks that are still pending. -/
structure Pending
    (grid : Grid)
    (state : GridState)
    (pending : List ThreadBlock) :
    Prop where
  suffix : pending <:+ grid.blocks
  stage :
    ∀ block ∈ grid.blocks,
      state.stage block.blockId = .pending ↔ block ∈ pending

/-- Two states agree on what other multiprocessors host and share. -/
structure SameOff
    (touched : Nat → Prop)
    (before after : GridState) :
    Prop where
  stage :
    ∀ blockId smId warps,
      ¬ touched smId →
      (after.stage blockId = .resident smId warps ↔
        before.stage blockId = .resident smId warps)
  shared :
    ∀ smId, ¬ touched smId → after.shared smId = before.shared smId

namespace SameOff

variable {touched : Nat → Prop}
variable {first second third : GridState}

theorem refl
    (touched : Nat → Prop)
    (state : GridState) :
    SameOff touched state state :=
  ⟨fun _ _ _ _ => Iff.rfl, fun _ _ => rfl⟩

theorem trans
    (earlier : SameOff touched first second)
    (later : SameOff touched second third) :
    SameOff touched first third where
  stage blockId smId warps elsewhere :=
    (later.stage blockId smId warps elsewhere).trans
      (earlier.stage blockId smId warps elsewhere)
  shared smId elsewhere :=
    (later.shared smId elsewhere).trans (earlier.shared smId elsewhere)

theorem mono
    {wider : Nat → Prop}
    (same : SameOff touched first second)
    (isWider : ∀ smId, touched smId → wider smId) :
    SameOff wider first second where
  stage blockId smId warps elsewhere :=
    same.stage blockId smId warps fun here => elsewhere (isWider smId here)
  shared smId elsewhere :=
    same.shared smId fun here => elsewhere (isWider smId here)

/-- What the machine shows of another multiprocessor stays. -/
theorem shows
    {grid : Grid}
    {req : KernelResourceRequirements}
    {smId : Nat}
    {sm : SM σ}
    (same : SameOff touched first second)
    (elsewhere : ¬ touched smId)
    (shown : Shows grid req first smId sm) :
    Shows grid req second smId sm where
  shared := (same.shared smId elsewhere).trans shown.shared
  houses := shown.houses
  stage blockId isResident :=
    (same.stage blockId smId _ elsewhere).mpr
      (shown.stage blockId isResident)
  resident blockId warps isResident :=
    shown.resident blockId warps
      ((same.stage blockId smId warps elsewhere).mp isResident)

/-- Moving a block that was not resident off the multiprocessor. -/
theorem setStage
    {state : GridState}
    {blockId smId : Nat}
    {stage : BlockStage}
    (before :
      ∀ other warps,
        state.stage blockId = .resident other warps → other = smId)
    (after :
      ∀ other warps, stage = .resident other warps → other = smId) :
    SameOff (· = smId) state (state.setStage blockId stage) where
  stage otherBlock other warps elsewhere := by
    by_cases same : otherBlock = blockId
    · subst same
      rw [setStage_self]
      constructor
      · intro isResident
        exact (elsewhere (after other warps isResident)).elim
      · intro isResident
        exact (elsewhere (before other warps isResident)).elim
    · rw [setStage_of_ne same]
  shared _ _ := rfl

end SameOff

/-- The state with other warps on one multiprocessor. -/
def timed
    (state : GridState)
    (smId : Nat)
    (warps : List Warp) :
    GridState :=
  { state with
    stage := fun blockId =>
      (state.stage blockId).on smId (SM.ofBlock blockId warps) }

section Simulation

variable {kernel : Kernel}
variable {grid : Grid}
variable {req : KernelResourceRequirements}
variable {numSms smId : Nat}
variable {state : GridState}
variable {sm : SM σ}

/-- Steps of one multiprocessor that keep the pending blocks as they are. -/
structure MovesOn
    (kernel : Kernel)
    (grid : Grid)
    (numSms : Nat)
    (touched : Nat → Prop)
    (before : GridState)
    (after : GridState) :
    Prop where
  steps : Steps kernel grid numSms before after
  same : SameOff touched before after
  pending :
    ∀ blockId,
      after.stage blockId = .pending ↔ before.stage blockId = .pending

/-- Retiring some completed blocks of a multiprocessor. -/
theorem retireAll
    {blockIds : List Nat}
    (distinct : blockIds.Nodup)
    (completed :
      ∀ blockId ∈ blockIds,
        ∃ warps,
          state.stage blockId = .resident smId warps ∧
            ∀ warp ∈ warps, warp.state = .completed) :
    ∃ after,
      MovesOn kernel grid numSms (· = smId) state after ∧
        after.globalMemory = state.globalMemory ∧
        after.shared = state.shared ∧
        ∀ blockId,
          after.stage blockId =
            if blockId ∈ blockIds then
              .retired smId
            else
              state.stage blockId := by
  induction blockIds generalizing state with
  | nil =>
      refine ⟨state, ⟨.refl, .refl _ state, fun _ => Iff.rfl⟩, rfl, rfl,
        fun blockId => ?_⟩
      rw [if_neg List.not_mem_nil]
  | cons blockId rest inductionHypothesis =>
      rw [List.nodup_cons] at distinct
      obtain ⟨warps, isResident, done⟩ :=
        completed blockId List.mem_cons_self
      let retired := state.setStage blockId (.retired smId)
      have stays
          {other : Nat}
          (isOther : other ≠ blockId) :
          retired.stage other = state.stage other :=
        setStage_of_ne isOther _ _
      have restCompleted :
          ∀ other ∈ rest,
            ∃ warps,
              retired.stage other = .resident smId warps ∧
                ∀ warp ∈ warps, warp.state = .completed := by
        intro other member
        have isOther : other ≠ blockId := by
          rintro rfl
          exact distinct.1 member
        rw [stays isOther]
        exact completed other (List.mem_cons_of_mem _ member)
      obtain ⟨after, moves, global, shared, stages⟩ :=
        inductionHypothesis distinct.2 restCompleted
      have here : retired.stage blockId = .retired smId :=
        setStage_self _ _ _
      have off : SameOff (· = smId) state retired := by
        refine .setStage (fun other others found => ?_) nofun
        rw [isResident] at found
        cases found
        rfl
      refine
        ⟨after,
          ⟨.head (.retire isResident done) moves.steps,
            off.trans moves.same, fun other => ?_⟩,
          global, shared, fun other => ?_⟩
      · rw [moves.pending other]
        by_cases isOther : other = blockId
        · subst isOther
          rw [here, isResident]
          constructor <;> intro impossible <;> cases impossible
        · rw [stays isOther]
      · rw [stages other]
        by_cases isOther : other = blockId
        · subst isOther
          rw [if_neg distinct.1, here, if_pos List.mem_cons_self]
        · rw [stays isOther]
          simp only [List.mem_cons, isOther, false_or]

/-- A release retires the completed blocks. -/
theorem Shows.release
    (shown : Shows grid req state smId sm) :
    ∃ after,
      MovesOn kernel grid numSms (· = smId) state after ∧
        after.globalMemory = state.globalMemory ∧
        Shows grid req after smId sm.releaseCompletedBlocks := by
  obtain ⟨resident, ofGrid, houses⟩ := shown.houses
  let finished :=
    (SM.finishedBlocks sm.warps sm.residentBlocks).map
      ResidentBlock.blockId
  have distinct : finished.Nodup :=
    houses.distinct.sublist
      (List.filter_sublist.map ResidentBlock.blockId)
  have isFinished
      {blockId : Nat} :
      blockId ∈ finished ↔
        blockId ∈ sm.residentBlocks.map ResidentBlock.blockId ∧
          SM.allCompleted sm.warps blockId = true := by
    simp only [finished, List.mem_map, SM.mem_finishedBlocks]
    constructor
    · rintro ⟨block, ⟨isResident, completed⟩, rfl⟩
      exact ⟨⟨block, isResident, rfl⟩, completed⟩
    · rintro ⟨⟨block, isResident, rfl⟩, completed⟩
      exact ⟨block, ⟨isResident, completed⟩, rfl⟩
  have completed :
      ∀ blockId ∈ finished,
        ∃ warps,
          state.stage blockId = .resident smId warps ∧
            ∀ warp ∈ warps, warp.state = .completed := by
    intro blockId member
    obtain ⟨isResident, allCompleted⟩ := isFinished.mp member
    refine ⟨_, shown.stage blockId isResident, fun warp inBlock => ?_⟩
    obtain ⟨ofSm, belongs⟩ := List.mem_filter.mp inBlock
    rw [SM.allCompleted, List.all_eq_true] at allCompleted
    have stopped := allCompleted warp ofSm
    rw [belongs] at stopped
    simpa using stopped
  obtain ⟨after, moves, global, shared, stages⟩ :=
    @retireAll kernel grid numSms smId state finished distinct completed
  have residentAfter
      {blockId : Nat} :
      blockId ∈ sm.releaseCompletedBlocks.residentBlocks.map
            ResidentBlock.blockId ↔
        blockId ∈ sm.residentBlocks.map ResidentBlock.blockId ∧
          blockId ∉ finished := by
    rw [SM.releaseCompletedBlocks_eq]
    simp only [List.mem_map, SM.mem_unfinishedBlocks, isFinished, not_and,
      Bool.not_eq_true]
    constructor
    · rintro ⟨block, ⟨isResident, unfinished⟩, rfl⟩
      exact ⟨⟨block, isResident, rfl⟩, fun _ => unfinished⟩
    · rintro ⟨⟨block, isResident, rfl⟩, unfinished⟩
      exact
        ⟨block, ⟨isResident, unfinished ⟨block, isResident, rfl⟩⟩, rfl⟩
  let unfinished :=
    resident.filter fun block => !SM.allCompleted sm.warps block.blockId
  refine ⟨after, moves, global, ?_, ⟨unfinished, ?_, ?_⟩, ?_, ?_⟩
  · rw [shared, shown.shared, SM.releaseCompletedBlocks_eq]
  · exact fun block member => ofGrid block (List.mem_of_mem_filter member)
  · have released := houses.release
    rw [List.filter_map] at released
    exact released
  · intro blockId isResident
    obtain ⟨wasResident, unfinished⟩ := residentAfter.mp isResident
    rw [stages blockId, if_neg unfinished, shown.stage blockId wasResident,
      houses.release_warps]
    congr 1
    rw [SM.ofBlock, SM.ofBlock, List.filter_filter]
    apply List.filter_congr
    intro warp _
    cases belongs : SM.belongsTo warp blockId with
    | false => rfl
    | true =>
        rw [SM.belongsTo, beq_iff_eq] at belongs
        have running : SM.allCompleted sm.warps blockId = false := by
          rw [← Bool.not_eq_true]
          exact fun done => unfinished (isFinished.mpr ⟨wasResident, done⟩)
        simp [belongs, running]
  · intro blockId warps isResident
    rw [stages blockId] at isResident
    split at isResident
    · cases isResident
    · rename_i unfinished
      exact
        residentAfter.mpr
          ⟨shown.resident blockId warps isResident, unfinished⟩

/-- A block that leaves the pending ones is the first of them. -/
theorem Pending.dispatched
    (wellFormed : grid.WellFormed)
    {block : ThreadBlock}
    {rest : List ThreadBlock}
    (pending : Pending grid state (block :: rest))
    {stage : BlockStage}
    (notPending : stage ≠ .pending) :
    Pending grid (state.setStage block.blockId stage) rest where
  suffix := by
    obtain ⟨earlier, order⟩ := pending.suffix
    exact ⟨earlier ++ [block], by rw [← order]; simp⟩
  stage other isOther := by
    obtain ⟨earlier, order⟩ := pending.suffix
    have member : block ∈ grid.blocks :=
      pending.suffix.subset List.mem_cons_self
    by_cases same : other.blockId = block.blockId
    · have equal : other = block :=
        List.inj_on_of_nodup_map wellFormed.distinct isOther member same
      subst equal
      rw [setStage_self]
      have distinct := wellFormed.distinct
      rw [← order, List.map_append, List.nodup_append] at distinct
      have notLater : other ∉ rest := by
        intro later
        have tail := distinct.2.1
        rw [List.map_cons, List.nodup_cons] at tail
        exact tail.1 (List.mem_map_of_mem later)
      constructor
      · exact fun impossible => (notPending impossible).elim
      · exact fun later => (notLater later).elim
    · rw [setStage_of_ne same, pending.stage other isOther,
        List.mem_cons]
      constructor
      · rintro (rfl | later)
        · exact (same rfl).elim
        · exact later
      · exact Or.inr

/-- The warps of a well-formed block are of the block. -/
theorem ofBlock_formed
    {block : ThreadBlock}
    (formed : block.WellFormed) :
    SM.ofBlock block.blockId block.warps = block.warps := by
  rw [SM.ofBlock, List.filter_eq_self]
  intro warp isWarp
  simp [SM.belongsTo, formed.blockId? isWarp]

/-- They are of no other block. -/
theorem ofBlock_formed_ne
    {block : ThreadBlock}
    (formed : block.WellFormed)
    {blockId : Nat}
    (isOther : blockId ≠ block.blockId) :
    SM.ofBlock blockId block.warps = [] := by
  rw [SM.ofBlock, List.filter_eq_nil_iff]
  intro warp isWarp belongs
  rw [SM.belongsTo, formed.blockId? isWarp, beq_iff_eq,
    Option.some.injEq] at belongs
  exact isOther belongs.symm

/-- A block that is not resident has no warp on the multiprocessor. -/
theorem ofBlock_absent
    {sm : SM σ}
    {housed : List (ThreadBlock × KernelResourceRequirements)}
    (houses : SM.Houses sm housed)
    {blockId : Nat}
    (absent : blockId ∉ sm.residentBlocks.map ResidentBlock.blockId) :
    SM.ofBlock blockId sm.warps = [] := by
  rw [SM.ofBlock, List.filter_eq_nil_iff]
  intro warp isWarp belongs
  obtain ⟨home, isHome, inHome⟩ := houses.block_of_warp isWarp
  rw [SM.belongsTo, inHome, beq_iff_eq, Option.some.injEq] at belongs
  rw [← belongs] at absent
  exact absent (List.mem_map_of_mem isHome)

/-- An allocation dispatches the first pending block. -/
theorem Shows.allocate
    (wellFormed : grid.WellFormed)
    (shown : Shows grid req state smId sm)
    (inside : smId < numSms)
    {block : ThreadBlock}
    {rest : List ThreadBlock}
    (pending : Pending grid state (block :: rest)) :
    ∃ after,
      Steps kernel grid numSms state after ∧
        SameOff (· = smId) state after ∧
        Pending grid after rest ∧
        after.globalMemory = state.globalMemory ∧
        Shows grid req after smId (sm.allocateBlock block req) := by
  obtain ⟨resident, ofGrid, houses⟩ := shown.houses
  have member : block ∈ grid.blocks :=
    pending.suffix.subset List.mem_cons_self
  have isPending : state.stage block.blockId = .pending :=
    (pending.stage block member).mpr List.mem_cons_self
  have formed := (wellFormed.blocks block member).2
  have admits := SM.allocateBlock_admits sm block req
  have fresh :
      block.blockId ∉ sm.residentBlocks.map ResidentBlock.blockId := by
    intro isResident
    rw [shown.stage block.blockId isResident] at isPending
    cases isPending
  have off :
      SameOff (· = smId) state
        (state.setStage block.blockId (.resident smId block.warps)) := by
    refine .setStage (fun other warps found => ?_)
      (fun other warps found => ?_)
    · rw [isPending] at found
      cases found
    · cases found
      rfl
  refine
    ⟨state.setStage block.blockId (.resident smId block.warps),
      .single (.dispatch member isPending inside), off,
      pending.dispatched wellFormed (fun impossible => by cases impossible),
      rfl, ⟨?_, ⟨resident ++ [block], ?_, ?_⟩, ?_, ?_⟩⟩
  · have sameShared :
        (sm.allocateBlock block req).sharedMemory = sm.sharedMemory :=
      SM.allocateBlock_sharedMemory sm block req
    rw [sameShared]
    exact shown.shared
  · intro other isOther
    rcases List.mem_append.mp isOther with old | new
    · exact ofGrid other old
    · rw [List.mem_singleton.mp new]
      exact member
  · rw [List.map_append]
    exact houses.allocate formed fresh
  · intro blockId isResident
    rw [admits.residentBlocks, List.map_append, List.mem_append]
      at isResident
    rw [admits.warps, SM.ofBlock, List.filter_append]
    change _ = BlockStage.resident smId
      (SM.ofBlock blockId sm.warps ++ SM.ofBlock blockId block.warps)
    rcases isResident with old | new
    · have isOther : blockId ≠ block.blockId := by
        rintro rfl
        exact fresh old
      rw [setStage_of_ne isOther, shown.stage blockId old,
        ofBlock_formed_ne formed isOther, List.append_nil]
    · have isNew : blockId = block.blockId := List.mem_singleton.mp new
      rw [isNew, setStage_self, ofBlock_formed formed,
        ofBlock_absent houses fresh, List.nil_append]
  · intro blockId warps isResident
    rw [admits.residentBlocks, List.map_append, List.mem_append]
    by_cases same : blockId = block.blockId
    · right
      rw [same]
      exact List.mem_singleton.mpr rfl
    · left
      rw [setStage_of_ne same] at isResident
      exact shown.resident blockId warps isResident

/-- Time passes on one multiprocessor. -/
theorem Shows.waits
    (shown : Shows grid req state smId sm)
    {warps : List Warp}
    (waited : List.Forall₂ Waited sm.warps warps) :
    MovesOn kernel grid numSms (· = smId) state (state.timed smId warps)
    where
  steps := by
    refine .single (.wait fun blockId => ?_)
    cases before : state.stage blockId with
    | pending => exact .pending
    | retired other => exact .retired other
    | resident other others =>
        rw [BlockStage.on]
        split
        · rename_i same
          subst same
          have isResident := shown.resident blockId others before
          rw [shown.stage blockId isResident] at before
          cases before
          refine .resident (List.rel_filter ?_ waited)
          intro first second related
          have belongs :=
            SM.belongsTo_of_identity related.core.identity blockId
          change
            SM.belongsTo first blockId = true ↔
              SM.belongsTo second blockId = true
          rw [belongs]
        · refine .resident ?_
          rw [List.forall₂_same]
          exact fun warp _ => ⟨.refl warp, Or.inl rfl⟩
  same :=
    { stage := fun blockId other others elsewhere => by
        change
          (state.stage blockId).on smId (SM.ofBlock blockId warps) =
              .resident other others ↔
            _
        cases before : state.stage blockId with
        | pending => rfl
        | retired retiredOn => rfl
        | resident home inHome =>
            rw [BlockStage.on]
            split
            · rename_i same
              subst same
              constructor <;> intro found <;> cases found <;>
                exact (elsewhere rfl).elim
            · rfl
      shared := fun _ _ => rfl }
  pending blockId := by
    change
      (state.stage blockId).on smId (SM.ofBlock blockId warps) =
          .pending ↔
        _
    cases before : state.stage blockId with
    | pending => rfl
    | retired retiredOn => rfl
    | resident home inHome =>
        rw [BlockStage.on]
        split <;> constructor <;> intro found <;> cases found

/-- A block that is resident after time has passed was resident before. -/
theorem timed_resident
    {warps others : List Warp}
    {blockId : Nat}
    (found :
      (state.timed smId warps).stage blockId = .resident smId others) :
    ∃ before, state.stage blockId = .resident smId before := by
  change (state.stage blockId).on smId _ = _ at found
  cases before : state.stage blockId with
  | pending =>
      rw [before] at found
      cases found
  | retired other =>
      rw [before] at found
      cases found
  | resident other warps =>
      rw [before, BlockStage.on] at found
      split at found
      · rename_i same
        exact ⟨warps, by rw [same]⟩
      · rename_i elsewhere
        cases found
        exact (elsewhere rfl).elim

/-- The warps of a resident block after time has passed. -/
theorem timed_stage
    {warps before : List Warp}
    {blockId : Nat}
    (found : state.stage blockId = .resident smId before) :
    (state.timed smId warps).stage blockId =
      .resident smId (SM.ofBlock blockId warps) := by
  change (state.stage blockId).on smId _ = _
  rw [found]
  exact if_pos rfl

/-- What a tick leaves of a multiprocessor, besides its memories. -/
structure Ticked
    (grid : Grid)
    (req : KernelResourceRequirements)
    (sm : SM σ)
    (warps : List Warp)
    (after : SM σ) :
    Prop where
  houses :
    ∃ resident : List ThreadBlock,
      (∀ block ∈ resident, block ∈ grid.blocks) ∧
        SM.Houses after (resident.map fun block => (block, req))
  resident :
    after.residentBlocks.map ResidentBlock.blockId =
      sm.residentBlocks.map ResidentBlock.blockId
  warps : after.warps = warps

/-- A tick keeps the resident blocks. -/
theorem Shows.ticked
    [WarpScheduler σ]
    (shown : Shows grid req state smId sm)
    {memory memory' : MemorySystem}
    {ticked : SM σ}
    (ran : sm.tick kernel memory = .ok (ticked, memory'))
    (sharedMemory : SharedMemory)
    (l1Cache : Cache) :
    Ticked grid req sm ticked.warps
      { ticked with sharedMemory := sharedMemory, l1Cache := l1Cache } := by
  obtain ⟨resident, ofGrid, houses⟩ := shown.houses
  obtain ⟨ledger, _, _⟩ := SM.tick_ok ran
  have housesTicked := houses.tick ran
  refine
    ⟨⟨resident, ofGrid, housesTicked.charges, housesTicked.warps,
        housesTicked.distinct, housesTicked.wellFormed⟩, ?_, rfl⟩
  change ticked.residentBlocks.map _ = _
  rw [ledger.residentBlocks]

/-- Where time has passed on a multiprocessor, the machine shows it. -/
theorem Shows.quiet
    (shown : Shows grid req state smId sm)
    {after : SM σ}
    {warps : List Warp}
    (ticked : Ticked grid req sm warps after)
    (sameShared : after.sharedMemory = sm.sharedMemory) :
    Shows grid req (state.timed smId warps) smId after := by
  refine ⟨shown.shared.trans sameShared.symm, ticked.houses, ?_, ?_⟩
  · intro blockId isResident
    rw [ticked.resident] at isResident
    rw [ticked.warps]
    exact timed_stage (shown.stage blockId isResident)
  · intro blockId others isResident
    obtain ⟨before, wasResident⟩ := timed_resident isResident
    rw [ticked.resident]
    exact shown.resident blockId before wasResident

/-- The block of an issued warp is resident. -/
theorem Shows.home
    [WarpScheduler σ]
    (shown : Shows grid req state smId sm)
    {index : Nat}
    {warp : Warp}
    (selected : sm.issued? = some (index, warp)) :
    ∃ blockId,
      warp.blockId? = some blockId ∧
        blockId ∈ sm.residentBlocks.map ResidentBlock.blockId := by
  obtain ⟨resident, _, houses⟩ := shown.houses
  obtain ⟨before, foundBefore, waited⟩ :=
    Pointwise.origin sm.timed_waited (SM.issued?_timed selected)
  obtain ⟨home, isHome, inHome⟩ :=
    houses.block_of_warp (List.mem_of_getElem? foundBefore)
  exact
    ⟨home.blockId, waited.core.blockId?.trans inHome,
      List.mem_map_of_mem isHome⟩

/-- The machine with one resident block and the memories changed. -/
def withBlock
    (state : GridState)
    (blockId smId : Nat)
    (warps : List Warp)
    (memory : MemorySystem) :
    GridState where
  stage := Function.update state.stage blockId (.resident smId warps)
  shared := Function.update state.shared smId memory.sharedMemory
  globalMemory := memory.globalMemory

@[simp] theorem withBlock_self
    (state : GridState)
    (blockId smId : Nat)
    (warps : List Warp)
    (memory : MemorySystem) :
    (state.withBlock blockId smId warps memory).stage blockId =
      .resident smId warps :=
  Function.update_self _ _ _

theorem withBlock_of_ne
    {other blockId : Nat}
    (elsewhere : other ≠ blockId)
    (state : GridState)
    (smId : Nat)
    (warps : List Warp)
    (memory : MemorySystem) :
    (state.withBlock blockId smId warps memory).stage other =
      state.stage other :=
  Function.update_of_ne elsewhere _ _

/-- Changing a resident block moves nothing off its multiprocessor. -/
theorem sameOff_withBlock
    {blockId : Nat}
    {warps changed : List Warp}
    (isResident : state.stage blockId = .resident smId warps)
    (memory : MemorySystem) :
    SameOff (· = smId) state
        (state.withBlock blockId smId changed memory) ∧
      ∀ other,
        (state.withBlock blockId smId changed memory).stage other =
            .pending ↔
          state.stage other = .pending := by
  refine
    ⟨⟨fun other home others isOther => ?_,
      fun other isOther => Function.update_of_ne isOther _ _⟩,
      fun other => ?_⟩
  · by_cases same : other = blockId
    · subst same
      rw [withBlock_self, isResident]
      constructor <;> intro impossible <;> cases impossible <;>
        exact (isOther rfl).elim
    · rw [withBlock_of_ne same]
  · by_cases same : other = blockId
    · subst same
      rw [withBlock_self, isResident]
      constructor <;> intro impossible <;> cases impossible
    · rw [withBlock_of_ne same]

/-- Where a warp has been issued in its block, the machine shows it. -/
theorem Shows.withBlock
    (shown : Shows grid req state smId sm)
    {timed changed : List Warp}
    {blockId : Nat}
    {memory : MemorySystem}
    {after : SM σ}
    (isResident :
      blockId ∈ sm.residentBlocks.map ResidentBlock.blockId)
    (elsewhere :
      ∀ other,
        other ≠ blockId →
        SM.ofBlock other changed = SM.ofBlock other timed)
    (ticked : Ticked grid req sm changed after)
    (shared : after.sharedMemory = memory.sharedMemory) :
    Shows grid req
      ((state.timed smId timed).withBlock blockId smId
        (SM.ofBlock blockId changed) memory)
      smId after := by
  refine ⟨?_, ticked.houses, ?_, ?_⟩
  · rw [shared]
    exact Function.update_self _ _ _
  · intro other isOther
    rw [ticked.resident] at isOther
    rw [ticked.warps]
    by_cases same : other = blockId
    · rw [same, withBlock_self]
    · rw [elsewhere other same, withBlock_of_ne same]
      exact timed_stage (shown.stage other isOther)
  · intro other others isOther
    rw [ticked.resident]
    by_cases same : other = blockId
    · rw [same]
      exact isResident
    · rw [withBlock_of_ne same] at isOther
      obtain ⟨before, wasResident⟩ := timed_resident isOther
      exact shown.resident other before wasResident

/-- A tick lets time pass and issues one warp in its block, or none. -/
theorem Shows.tick
    [WarpScheduler σ]
    [LawfulWarpScheduler σ]
    (shown : Shows grid req state smId sm)
    {memory memory' : MemorySystem}
    {ticked : SM σ}
    (sharedBefore : memory.sharedMemory = sm.sharedMemory)
    (globalBefore : memory.globalMemory = state.globalMemory)
    (ran : sm.tick kernel memory = .ok (ticked, memory'))
    (l1Cache : Cache) :
    ∃ after,
      MovesOn kernel grid numSms (· = smId) state after ∧
        after.globalMemory = memory'.globalMemory ∧
        Shows grid req after smId
          { ticked with
            sharedMemory := memory'.sharedMemory
            l1Cache := l1Cache } := by
  obtain ⟨_, _, step⟩ := SM.tick_ok ran
  have leaves := shown.ticked ran memory'.sharedMemory l1Cache
  generalize ticked.warps = changed at step leaves
  cases step with
  | quiet nothing waited =>
      exact
        ⟨state.timed smId changed, shown.waits waited, globalBefore.symm,
          shown.quiet leaves sharedBefore⟩
  | issued selected step =>
      rename_i index warp
      have found := SM.issued?_timed selected
      obtain ⟨blockId, inBlock, isResident⟩ := shown.home selected
      obtain ⟨issued, elsewhere⟩ := step.ofBlock found inBlock
      have belongs : SM.belongsTo warp blockId = true := by
        simp [SM.belongsTo, inBlock]
      have stageBefore :=
        @timed_stage smId state sm.timed _ _
          (shown.stage blockId isResident)
      have ofBlock :
          ∀ warp ∈ SM.ofBlock blockId sm.timed,
            warp.blockId? = some blockId := by
        intro other member
        have isMember := (List.mem_filter.mp member).2
        rwa [SM.belongsTo, beq_iff_eq] at isMember
      have issues :=
        @Step.issue kernel grid numSms (state.timed smId sm.timed)
          blockId smId _ _ _ warp memory memory' stageBefore ofBlock
          (SM.ofBlock_position found belongs) (SM.issued?_ready selected)
          (sharedBefore.trans shown.shared.symm) globalBefore issued
      have waits :=
        @Shows.waits _ kernel grid req numSms smId state sm shown _
          sm.timed_waited
      obtain ⟨same, pending⟩ :=
        @sameOff_withBlock smId (state.timed smId sm.timed) blockId _
          (SM.ofBlock blockId changed) stageBefore memory'
      exact
        ⟨(state.timed smId sm.timed).withBlock blockId smId
            (SM.ofBlock blockId changed) memory',
          ⟨waits.steps.trans (.single issues), waits.same.trans same,
            fun other => (pending other).trans (waits.pending other)⟩,
          rfl, shown.withBlock isResident elsewhere leaves rfl⟩

end Simulation

end GridState

end SimSm
