import SimSm.Latency
import SimSm.Progress

namespace SimSm

/-!
# Cycle and wait accounting

Over the life of a multiprocessor (admissions, releases and ticks) its
counters are compared with a log of what really happened: which warp each tick
issued, and which warps were ready and had to wait.
-/

open InstructionExecutor PerformanceCounter

namespace Accounting

/-- Two counter sets agree on cycles, issues, lost cycles and waits. -/
structure SameTimes (before after : PerformanceCounter) : Prop where
  cycles : after.cycles = before.cycles
  noReadyWarp :
    after.stallReasons .noReadyWarp = before.stallReasons .noReadyWarp
  warpIssueCounts : after.warpIssueCounts = before.warpIssueCounts
  totalWarpWaitCycles :
    after.totalWarpWaitCycles = before.totalWarpWaitCycles

namespace SameTimes

theorem refl (counters : PerformanceCounter) : SameTimes counters counters :=
  ⟨rfl, rfl, rfl, rfl⟩

theorem trans
    {first second third : PerformanceCounter}
    (earlier : SameTimes first second)
    (later : SameTimes second third) :
    SameTimes first third where
  cycles := later.cycles.trans earlier.cycles
  noReadyWarp := later.noReadyWarp.trans earlier.noReadyWarp
  warpIssueCounts := later.warpIssueCounts.trans earlier.warpIssueCounts
  totalWarpWaitCycles :=
    later.totalWarpWaitCycles.trans earlier.totalWarpWaitCycles

end SameTimes

/-- Recording the result of an instruction counts no time. -/
theorem recordResult_sameTimes
    (inst : Instruction)
    (result : ExecutionResult)
    (counters : PerformanceCounter) :
    SameTimes counters (SM.recordResult inst result counters) := by
  unfold SM.recordResult
  dsimp only
  split <;> split <;> split <;> exact ⟨rfl, rfl, rfl, rfl⟩

/-- Write conflicts are counted under a reason of their own. -/
theorem addWriteConflicts_sameTimes
    (conflicts : Nat)
    (counters : PerformanceCounter) :
    SameTimes counters
      ((fun counters : PerformanceCounter =>
        counters.addStall .writeConflict)^[conflicts] counters) := by
  induction conflicts generalizing counters with
  | zero => exact .refl counters
  | succ conflicts inductionHypothesis =>
      rw [Function.iterate_succ_apply]
      have one : SameTimes counters (counters.addStall .writeConflict) :=
        ⟨rfl, rfl, rfl, rfl⟩
      exact one.trans (inductionHypothesis _)

/-- Retiring an instruction counts no time. -/
theorem retire_sameTimes
    (result : ExecutionResult)
    (counters : PerformanceCounter) :
    SameTimes counters (SM.retire result counters) := by
  have conflicts :=
    addWriteConflicts_sameTimes result.writeConflictStalls counters
  exact conflicts.trans ⟨rfl, rfl, rfl, rfl⟩

variable {σ : Type}

/-- Issuing a warp counts no cycle, no issue and no wait. -/
theorem issue_sameTimes
    {sm after : SM σ}
    {kernel : Kernel}
    {index : Nat}
    {warp : Warp}
    {memory memory' : MemorySystem}
    (ran : sm.issue index warp kernel memory = .ok (after, memory')) :
    SameTimes sm.counters after.counters := by
  have counts := SM.issue_counters ran
  generalize after.counters = counters at counts
  cases counts with
  | pastEnd _ => exact .refl _
  | executed _ _ =>
      rename_i inst result executed _ _
      exact
        (recordResult_sameTimes inst result sm.counters).trans
          (retire_sameTimes result _)

/-- Wait accounting counts neither cycles nor issues. -/
theorem accountWarps_counters
    (selectedId : Option Nat)
    (counters : PerformanceCounter)
    (warps : List Warp) :
    let after := (SM.accountWarps selectedId counters warps).1
    after.cycles = counters.cycles ∧
      after.stallReasons = counters.stallReasons ∧
      after.warpIssueCounts = counters.warpIssueCounts := by
  induction warps generalizing counters with
  | nil => exact ⟨rfl, rfl, rfl⟩
  | cons warp rest inductionHypothesis =>
      obtain ⟨cycles, reasons, issues⟩ :=
        inductionHypothesis (SM.accountWarp selectedId counters warp).1
      have one :
          (SM.accountWarp selectedId counters warp).1.cycles =
              counters.cycles ∧
            (SM.accountWarp selectedId counters warp).1.stallReasons =
              counters.stallReasons ∧
            (SM.accountWarp selectedId counters warp).1.warpIssueCounts =
              counters.warpIssueCounts := by
        unfold SM.accountWarp
        split
        · split
          · exact ⟨rfl, rfl, rfl⟩
          · dsimp only
            split <;> exact ⟨rfl, rfl, rfl⟩
        · exact ⟨rfl, rfl, rfl⟩
      exact
        ⟨cycles.trans one.1, reasons.trans one.2.1, issues.trans one.2.2⟩

/-! ## The log -/

/--
What really happened to a multiprocessor: the blocks it was given, the tag of
the warp at each position (its number in order of allocation), the ticks that
issued a warp, how often each tag was issued, and the pairs of a tick and a
warp that was ready and not issued in it.
-/
structure Log where
  blocks : List ThreadBlock := []
  tags : List Nat := []
  issued : Nat := 0
  issues : Nat → Nat := fun _ => 0
  waited : Nat := 0

namespace Log

/-- The ids of all warps ever allocated, by tag. -/
def ids (log : Log) : List Nat :=
  log.blocks.flatMap fun block => block.warps.map Warp.warpId

/-- Admission numbers the warps of the block. -/
def allocate (log : Log) (block : ThreadBlock) : Log :=
  { log with
    blocks := log.blocks ++ [block]
    tags :=
      log.tags ++ List.range' log.ids.length block.warps.length }

/-- A release forgets the tags of the warps it drops. -/
def release (log : Log) (sm : SM σ) : Log :=
  let finished := SM.finishedBlocks sm.warps sm.residentBlocks
  { log with
    tags :=
      ((sm.warps.zip log.tags).filter fun tagged =>
        !finished.any fun block =>
          SM.belongsTo tagged.1 block.blockId).map Prod.snd }

/-- The warps that are ready in a tick and not issued in it. -/
def waiting [WarpScheduler σ] (sm : SM σ) : Nat :=
  if sm.isCompleted then
    0
  else
    sm.tickStalls.warps.zipIdx.countP fun placed =>
      placed.1.state == .ready &&
        sm.issued?.map Prod.fst != some placed.2

/-- The tag of the warp that a tick issues. -/
def issuedTag? [WarpScheduler σ] (log : Log) (sm : SM σ) : Option Nat :=
  sm.issued?.bind fun issued => log.tags[issued.1]?

/-- A tick logs its issue and the warps that had to wait. -/
def tick [WarpScheduler σ] (log : Log) (sm : SM σ) : Log :=
  { log with
    issued := log.issued + sm.issued?.isSome.toNat
    issues := fun tag =>
      log.issues tag + (log.issuedTag? sm == some tag).toNat
    waited := log.waited + waiting sm }

end Log

/--
The life of a new multiprocessor with a scheduler: its log, and the states that
its ticks started from.
-/
inductive Lifetime [WarpScheduler σ] :
    SM σ → Log → List (SM σ) → Prop where
  | fresh
      {sm : SM σ}
      (vacant : sm.Vacant)
      (zero : sm.counters = {})
      (scheduled : sm.scheduler.isSome = true) :
      Lifetime sm {} []
  | allocate
      {sm : SM σ}
      {log : Log}
      {ticked : List (SM σ)}
      (earlier : Lifetime sm log ticked)
      (block : ThreadBlock)
      (req : KernelResourceRequirements) :
      Lifetime (sm.allocateBlock block req) (log.allocate block) ticked
  | release
      {sm : SM σ}
      {log : Log}
      {ticked : List (SM σ)}
      (earlier : Lifetime sm log ticked) :
      Lifetime sm.releaseCompletedBlocks (log.release sm) ticked
  | tick
      {sm after : SM σ}
      {log : Log}
      {ticked : List (SM σ)}
      {kernel : Kernel}
      {memory memory' : MemorySystem}
      (earlier : Lifetime sm log ticked)
      (ran : sm.tick kernel memory = .ok (after, memory')) :
      Lifetime after (log.tick sm) (sm :: ticked)

/-- The issue counts that admitting a block leaves. -/
def initializeAll
    (counts : List (Nat × Nat))
    (warps : List Warp) :
    List (Nat × Nat) :=
  warps.foldl (fun counts warp => upsert warp.warpId id counts) counts

/-- Adding warps counts no time; it only makes entries for them. -/
theorem addWarps_counters
    (warps : List Warp)
    (sm : SM σ) :
    (warps.foldl
        (fun sm warp =>
          let added := sm.addWarp warp
          { added with
            counters :=
              added.counters.initializeWarpIssueCount warp.warpId })
        sm).counters =
      { sm.counters with
        warpIssueCounts :=
          initializeAll sm.counters.warpIssueCounts warps } := by
  induction warps generalizing sm with
  | nil => rfl
  | cons warp rest inductionHypothesis =>
      rw [List.foldl_cons, inductionHypothesis]
      rfl

/-- Admission counts no time; it only makes entries for the warps. -/
theorem allocateBlock_counters
    (sm : SM σ)
    (block : ThreadBlock)
    (req : KernelResourceRequirements) :
    (sm.allocateBlock block req).counters =
      { sm.counters with
        warpIssueCounts :=
          initializeAll sm.counters.warpIssueCounts block.warps } :=
  addWarps_counters block.warps _

/-- Entries for new warps do not change the sum of the counts. -/
theorem sum_initializeAll
    (counts : List (Nat × Nat))
    (warps : List Warp) :
    ((initializeAll counts warps).map Prod.snd).sum =
      (counts.map Prod.snd).sum := by
  unfold initializeAll
  induction warps generalizing counts with
  | nil => rfl
  | cons warp rest inductionHypothesis =>
      rw [List.foldl_cons, inductionHypothesis, sum_upsert_id]

section Life

variable [WarpScheduler σ]
variable {sm after : SM σ}
variable {log : Log}
variable {ticked : List (SM σ)}
variable {kernel : Kernel}
variable {memory memory' : MemorySystem}

/-- A multiprocessor keeps its scheduler. -/
theorem Lifetime.scheduled
    (life : Lifetime sm log ticked) :
    sm.scheduler.isSome = true := by
  induction life with
  | fresh _ _ scheduled => exact scheduled
  | allocate _ block req inductionHypothesis =>
      rw [(SM.allocateBlock_admits _ block req).scheduler]
      exact inductionHypothesis
  | release _ inductionHypothesis =>
      rw [SM.releaseCompletedBlocks_eq]
      exact inductionHypothesis
  | tick _ ran inductionHypothesis =>
      obtain ⟨_, next, _⟩ := SM.tick_ok ran
      rw [next, SM.rescheduled]
      split
      · exact inductionHypothesis
      · rw [Option.isSome_map]
        exact inductionHypothesis

/-- Every tick started from a state with a scheduler. -/
theorem Lifetime.ticked_scheduled
    (life : Lifetime sm log ticked) :
    ∀ state ∈ ticked, state.scheduler.isSome = true := by
  induction life with
  | fresh _ _ _ => exact nofun
  | allocate _ _ _ inductionHypothesis => exact inductionHypothesis
  | release _ inductionHypothesis => exact inductionHypothesis
  | tick earlier _ inductionHypothesis =>
      exact
        List.forall_mem_cons.mpr ⟨earlier.scheduled, inductionHypothesis⟩

/-- A completed multiprocessor issues nothing. -/
theorem issued?_of_completed
    (done : sm.isCompleted = true) :
    sm.issued? = none := by
  rw [SM.issued?, if_pos done]

/-- The accounted id is that of the issued warp. -/
theorem selectedId_eq
    (uncompleted : sm.isCompleted = false) :
    (sm.selected?.bind (sm.tickStalls.warps[·]?)).map Warp.warpId =
      sm.issued?.map fun issued => issued.2.warpId := by
  unfold SM.issued?
  rw [uncompleted, if_neg Bool.false_ne_true]
  cases sm.selected? with
  | none => rfl
  | some index =>
      rw [Option.bind_some, Option.bind_some, Option.map_map]
      have accounted :
          List.Forall₂ Accounted sm.tickStalls.warps sm.timed :=
        SM.accountWarps_accounted _ _ _
      cases found : sm.tickStalls.warps[index]? with
      | none =>
          have outside : sm.timed[index]? = none := by
            rw [List.getElem?_eq_none_iff, ← accounted.length_eq]
            exact List.getElem?_eq_none_iff.mp found
          rw [outside]
          rfl
      | some warp =>
          obtain ⟨timed, foundTimed, related⟩ :=
            Pointwise.partner accounted found
          rw [foundTimed]
          simp [related.core.warpId]

/-- What a tick counts, by whether it issues a warp. -/
inductive TickTimes (sm : SM σ) (counters : PerformanceCounter) : Prop where
  | completed
      (done : sm.isCompleted = true)
      (same : counters = sm.counters)
  | idle
      (uncompleted : sm.isCompleted = false)
      (nothing : sm.issued? = none)
      (cycles : counters.cycles = sm.counters.cycles + 1)
      (noReadyWarp :
        counters.stallReasons .noReadyWarp =
          sm.counters.stallReasons .noReadyWarp)
      (issues : counters.warpIssueCounts = sm.counters.warpIssueCounts)
  | issued
      {index : Nat}
      {warp : Warp}
      (uncompleted : sm.isCompleted = false)
      (selected : sm.issued? = some (index, warp))
      (cycles : counters.cycles = sm.counters.cycles + 1)
      (noReadyWarp :
        counters.stallReasons .noReadyWarp =
          sm.counters.stallReasons .noReadyWarp)
      (issues :
        counters.warpIssueCounts =
          upsert warp.warpId (· + 1) sm.counters.warpIssueCounts)

/-- The counters that a tick issues from. -/
theorem accounted_counters
    (uncompleted : sm.isCompleted = false) :
    sm.accounted.counters.cycles = sm.counters.cycles + 1 ∧
      sm.accounted.counters.stallReasons = sm.counters.stallReasons ∧
      sm.accounted.counters.warpIssueCounts =
        sm.issued?.elim sm.counters.warpIssueCounts fun issued =>
          upsert issued.2.warpId (· + 1) sm.counters.warpIssueCounts := by
  have idShape := selectedId_eq uncompleted
  obtain ⟨cycles, reasons, issues⟩ :=
    accountWarps_counters
      ((sm.selected?.bind (sm.tickStalls.warps[·]?)).map Warp.warpId)
      sm.tickStalls.counters sm.tickStalls.warps
  unfold SM.accounted SM.accountSelection
  dsimp only
  rw [idShape] at cycles reasons issues ⊢
  cases selected : sm.issued? with
  | none =>
      rw [selected] at cycles reasons issues
      exact ⟨cycles, reasons, issues⟩
  | some issued =>
      rw [selected] at cycles reasons issues
      refine ⟨cycles, reasons, ?_⟩
      exact congrArg (upsert issued.2.warpId (· + 1)) issues

/-- An uncompleted multiprocessor that goes idle loses the cycle uncounted. -/
theorem idle_counters
    (uncompleted : sm.isCompleted = false) :
    sm.accounted.idle.counters = sm.accounted.counters := by
  obtain ⟨warp, member, _⟩ := SM.exists_uncompleted uncompleted
  have nonempty : sm.accounted.warps ≠ [] := by
    have sameLength :=
      (SM.timed_waited sm).length_eq
    intro empty
    change sm.timed = [] at empty
    rw [empty, List.length_nil, List.length_eq_zero_iff] at sameLength
    rw [sameLength] at member
    cases member
  unfold SM.idle
  rw [if_neg (by rwa [List.isEmpty_iff])]

/-- A tick of a scheduled multiprocessor counts its cycle and its issue. -/
theorem tickTimes
    (scheduled : sm.scheduler.isSome = true)
    (ran : sm.tick kernel memory = .ok (after, memory')) :
    TickTimes sm after.counters := by
  cases SM.ticking ran with
  | completed done => exact .completed done rfl
  | unscheduled _ none =>
      rw [none] at scheduled
      cases scheduled
  | idle uncompleted _ nothing =>
      obtain ⟨cycles, reasons, issues⟩ := accounted_counters uncompleted
      rw [nothing] at issues
      rw [← idle_counters uncompleted] at cycles reasons issues
      exact
        .idle uncompleted nothing cycles (congrFun reasons _) issues
  | issued uncompleted _ selected issues =>
      obtain ⟨cycles, reasons, counts⟩ := accounted_counters uncompleted
      have same := issue_sameTimes issues
      rw [selected] at counts
      exact
        .issued uncompleted selected (same.cycles.trans cycles)
          (same.noReadyWarp.trans (congrFun reasons _))
          (same.warpIssueCounts.trans counts)

/-- A tick of an uncompleted multiprocessor counts one cycle. -/
theorem tick_cycles
    (scheduled : sm.scheduler.isSome = true)
    (uncompleted : sm.isCompleted = false)
    (ran : sm.tick kernel memory = .ok (after, memory')) :
    after.counters.cycles = sm.counters.cycles + 1 := by
  have times := tickTimes scheduled ran
  generalize after.counters = counters at times
  cases times with
  | completed done _ =>
      rw [uncompleted] at done
      cases done
  | idle _ _ cycles _ _ => exact cycles
  | issued _ _ cycles _ _ => exact cycles

/-! ## Cycles -/

/-- Every counted cycle is an issue or a counted loss. -/
def CyclesAccounted (sm : SM σ) (log : Log) : Prop :=
  sm.counters.cycles =
      log.issued + sm.counters.stallReasons .noReadyWarp ∧
    log.issued = (sm.counters.warpIssueCounts.map Prod.snd).sum

/-- The issue counts add up, and no cycle is counted twice. -/
theorem Lifetime.issued_le
    (life : Lifetime sm log ticked) :
    log.issued = (sm.counters.warpIssueCounts.map Prod.snd).sum ∧
      log.issued + sm.counters.stallReasons .noReadyWarp ≤
        sm.counters.cycles := by
  induction life with
  | fresh _ zero _ =>
      rw [zero]
      exact ⟨rfl, le_rfl⟩
  | allocate _ block req inductionHypothesis =>
      obtain ⟨sum, bound⟩ := inductionHypothesis
      rw [allocateBlock_counters]
      exact ⟨sum.trans (sum_initializeAll _ block.warps).symm, bound⟩
  | release _ inductionHypothesis =>
      rw [SM.releaseCompletedBlocks_eq]
      exact inductionHypothesis
  | tick earlier ran inductionHypothesis =>
      obtain ⟨sum, bound⟩ := inductionHypothesis
      cases tickTimes earlier.scheduled ran with
      | completed done same =>
          have nothing := issued?_of_completed done
          simp only [Log.tick, nothing, same]
          exact ⟨sum, bound⟩
      | idle _ nothing cycles noReadyWarp issues =>
          simp only [Log.tick, nothing, cycles, noReadyWarp, issues]
          exact ⟨sum, bound.trans (Nat.le_succ _)⟩
      | issued _ selected cycles noReadyWarp issues =>
          simp only [Log.tick, selected, cycles, noReadyWarp, issues,
            sum_upsert_succ]
          refine ⟨congrArg (· + 1) sum, ?_⟩
          rw [Option.isSome_some, Bool.toNat_true, Nat.add_right_comm]
          exact Nat.succ_le_succ bound

/-- Cycles are accounted for exactly while every tick issues a warp. -/
theorem Lifetime.cyclesAccounted_iff
    (life : Lifetime sm log ticked) :
    CyclesAccounted sm log ↔
      ∀ state ∈ ticked,
        state.isCompleted = false → state.issued?.isSome = true := by
  unfold CyclesAccounted
  rw [and_iff_left life.issued_le.1]
  induction life with
  | fresh _ zero _ =>
      rw [zero]
      exact iff_of_true rfl nofun
  | allocate _ block req inductionHypothesis =>
      rw [allocateBlock_counters]
      exact inductionHypothesis
  | release _ inductionHypothesis =>
      rw [SM.releaseCompletedBlocks_eq]
      exact inductionHypothesis
  | tick earlier ran inductionHypothesis =>
      rw [List.forall_mem_cons, ← inductionHypothesis]
      have bound := earlier.issued_le.2
      cases tickTimes earlier.scheduled ran with
      | completed done same =>
          have nothing := issued?_of_completed done
          simp [Log.tick, nothing, same, done]
      | idle uncompleted nothing cycles noReadyWarp _ =>
          simp only [Log.tick, nothing, cycles, noReadyWarp, uncompleted]
          simp only [Option.isSome_none, Bool.toNat_false, Nat.add_zero,
            Bool.false_eq_true, true_implies, false_and, iff_false]
          omega
      | issued _ selected cycles noReadyWarp _ =>
          simp only [Log.tick, selected, cycles, noReadyWarp]
          simp only [Option.isSome_some, Bool.toNat_true, implies_true,
            true_and]
          omega

/-- A lawful policy issues exactly what it selects. -/
theorem issued?_isSome_iff
    [LawfulWarpScheduler σ]
    (uncompleted : sm.isCompleted = false) :
    sm.issued?.isSome = true ↔
      ∃ index,
        sm.selected? = some index ∧ ReadyAt sm.tickStalls.warps index := by
  have accounted :
      List.Forall₂ Accounted sm.tickStalls.warps sm.timed :=
    SM.accountWarps_accounted _ _ _
  constructor
  · intro issues
    obtain ⟨⟨index, warp⟩, selected⟩ := Option.isSome_iff_exists.mp issues
    have ready := SM.issued?_ready selected
    have foundTimed := SM.issued?_timed selected
    obtain ⟨stalled, found, related⟩ :=
      Pointwise.origin accounted foundTimed
    refine ⟨index, ?_, stalled, found, by rw [← related.state, ready]⟩
    rw [SM.issued?, uncompleted, if_neg Bool.false_ne_true,
      Option.bind_eq_some_iff] at selected
    obtain ⟨position, bySelection, isIssued⟩ := selected
    obtain ⟨_, _, same⟩ := Option.map_eq_some_iff.mp isIssued
    rw [bySelection, (Prod.mk.inj same).1]
  · rintro ⟨index, selected, warp, found, _⟩
    obtain ⟨timed, foundTimed, _⟩ := Pointwise.partner accounted found
    rw [SM.issued?, uncompleted, if_neg Bool.false_ne_true, selected,
      Option.bind_some, foundTimed]
    rfl

end Life

/-! ## Waits and issues of the warps -/

/-- Waiting keeps the ids of the warps. -/
theorem tickStalls_ids
    (sm : SM σ) :
    sm.tickStalls.warps.map Warp.warpId = sm.warps.map Warp.warpId :=
  Pointwise.map_eq sm.tickStalls_waited fun related => related.core.warpId

section Warps

variable [WarpScheduler σ]
variable {sm after : SM σ}
variable {log : Log}
variable {ticked : List (SM σ)}
variable {kernel : Kernel}
variable {memory memory' : MemorySystem}

/-- The current waits of some warps, added up. -/
def totalWaits (warps : List Warp) : Nat :=
  (warps.map Warp.currentWaitCycles).sum

/-- Recorded and current waits are the waits that happened. -/
def WaitsExact (sm : SM σ) (log : Log) : Prop :=
  sm.counters.totalWarpWaitCycles + totalWaits sm.warps = log.waited

/-- Each warp ever allocated has an entry of its own with its issues. -/
def IssuesExact (sm : SM σ) (log : Log) : Prop :=
  sm.counters.warpIssueCounts.length = log.ids.length ∧
    ∀ tag id, log.ids[tag]? = some id →
      sm.counters.warpIssueCounts.lookup id = some (log.issues tag)

/-- Wait accounting moves or counts every wait, by id. -/
theorem accountWarps_waits
    (selectedId : Option Nat)
    (counters : PerformanceCounter)
    (warps : List Warp) :
    let after := SM.accountWarps selectedId counters warps
    after.1.totalWarpWaitCycles + totalWaits after.2 =
      counters.totalWarpWaitCycles + totalWaits warps +
        warps.countP fun warp =>
          warp.state == .ready && selectedId != some warp.warpId := by
  induction warps generalizing counters with
  | nil => rfl
  | cons warp rest inductionHypothesis =>
      have tail :=
        inductionHypothesis (SM.accountWarp selectedId counters warp).1
      have head :
          (SM.accountWarp selectedId counters warp).1.totalWarpWaitCycles +
              (SM.accountWarp selectedId counters
                warp).2.currentWaitCycles =
            counters.totalWarpWaitCycles + warp.currentWaitCycles +
              (warp.state == .ready &&
                selectedId != some warp.warpId).toNat := by
        unfold SM.accountWarp
        by_cases ready : warp.state = .ready
        · rw [if_pos ready]
          by_cases isSelected : selectedId = some warp.warpId
          · rw [if_pos isSelected]
            simp [isSelected, recordWarpWait, Warp.resetWaitCycles]
          · have differs : (selectedId != some warp.warpId) = true :=
              bne_iff_ne.mpr isSelected
            rw [if_neg isSelected]
            simp only [Warp.checkAndSetStarvation]
            split
            · simp [ready, differs, recordStarvationEvent,
                Warp.incrementWaitCycles, Nat.add_assoc]
            · simp [ready, differs, Warp.incrementWaitCycles,
                Nat.add_assoc]
        · simp [ready]
      rw [List.countP_cons]
      simp only [SM.accountWarps, totalWaits, List.map_cons, List.sum_cons]
        at tail ⊢
      cases counted :
          (warp.state == .ready && selectedId != some warp.warpId) with
      | true =>
          rw [counted, Bool.toNat_true] at head
          rw [if_pos rfl]
          omega
      | false =>
          rw [counted, Bool.toNat_false] at head
          rw [if_neg Bool.false_ne_true]
          omega

/-- Completed warps have no wait left. -/
def Rested (warps : List Warp) : Prop :=
  ∀ warp ∈ warps,
    warp.state = .completed → warp.currentWaitCycles = 0

/-- Settling a warp without a wait gives it none. -/
theorem settle_wait
    {result : ExecutionResult}
    {warp : Warp}
    (none : warp.currentWaitCycles = 0) :
    (SM.settle kernel result warp).currentWaitCycles = 0 := by
  unfold SM.settle
  split
  · split
    · rename_i nextPath popped popping
      unfold Warp.popSimtStack at popping
      split at popping
      · cases popping
      · cases popping
        exact none
    · split
      · exact none
      · exact none
  · split
    · unfold Warp.stall
      split
      · rfl
      · exact none
    · exact none

/-- A release keeps the wait of a warp. -/
theorem releaseFrom_wait
    (blockId cycle : Nat)
    (warp : Warp) :
    (warp.releaseFrom blockId cycle).currentWaitCycles =
      warp.currentWaitCycles := by
  unfold Warp.releaseFrom Warp.setReady
  split
  · split <;> rfl
  · rfl

/-- Issuing a warp without a wait keeps all waits. -/
theorem issue_waits
    {warps final : List Warp}
    {index : Nat}
    {warp : Warp}
    (found : warps[index]? = some warp)
    (none : warp.currentWaitCycles = 0)
    (step : SM.IssueStep kernel warps index warp memory final memory') :
    final.map Warp.currentWaitCycles =
      warps.map Warp.currentWaitCycles := by
  cases step with
  | pastEnd _ => exact Pointwise.map_set_eq found rfl
  | executed _ ran _ =>
      refine Pointwise.map_set_eq found ?_
      have kept := (execute_ok ran).shell.currentWaitCycles
      rw [settle_wait (kept.trans none), none]
  | waits _ ran _ _ =>
      refine Pointwise.map_set_eq found ?_
      rw [settle_wait (by rfl), none]
  | released cycle fetched ran barrier othersWait =>
      rename_i inst result executed
      have released :
          (warps.map
              (Warp.releaseFrom (executed.blockId?.getD 0) cycle)).map
              Warp.currentWaitCycles =
            warps.map Warp.currentWaitCycles := by
        rw [List.map_map]
        exact List.map_congr_left fun other _ => releaseFrom_wait _ _ other
      rw [← released]
      refine
        Pointwise.map_set_eq (by rw [List.getElem?_map, found]; rfl) ?_
      rw [settle_wait (by rw [releaseFrom_wait]; rfl), releaseFrom_wait,
        none]

/-- The warps that a tick issues from: their waits and their ids. -/
theorem timed_waits
    (uncompleted : sm.isCompleted = false) :
    sm.accounted.counters.totalWarpWaitCycles + totalWaits sm.timed =
      sm.counters.totalWarpWaitCycles + totalWaits sm.warps +
        sm.tickStalls.warps.countP fun warp =>
          warp.state == .ready &&
            (sm.issued?.map fun issued => issued.2.warpId) !=
              some warp.warpId := by
  have moved :=
    accountWarps_waits
      ((sm.selected?.bind (sm.tickStalls.warps[·]?)).map Warp.warpId)
      sm.tickStalls.counters sm.tickStalls.warps
  have stalls : totalWaits sm.tickStalls.warps = totalWaits sm.warps := by
    unfold totalWaits SM.tickStalls
    rw [List.map_map]
    refine congrArg List.sum (List.map_congr_left fun warp _ => ?_)
    simp only [Function.comp_apply, Warp.tickStall]
    split
    · split <;> rfl
    · rfl
  have recorded :
      sm.accounted.counters.totalWarpWaitCycles =
        (SM.accountWarps
          ((sm.selected?.bind (sm.tickStalls.warps[·]?)).map Warp.warpId)
          sm.tickStalls.counters
          sm.tickStalls.warps).1.totalWarpWaitCycles := by
    unfold SM.accounted SM.accountSelection
    dsimp only
    split <;> rfl
  dsimp only at moved
  rw [selectedId_eq uncompleted, stalls] at moved
  rw [recorded, selectedId_eq uncompleted]
  unfold SM.timed SM.accountSelection
  dsimp only
  rw [selectedId_eq uncompleted]
  exact moved

/-- Time gives no completed warp a wait. -/
theorem Rested.timed
    (rested : Rested sm.warps) :
    Rested sm.timed := by
  intro warp member completed
  obtain ⟨position, found⟩ := List.mem_iff_getElem?.mp member
  have accounted :
      List.Forall₂ Accounted sm.tickStalls.warps sm.timed :=
    SM.accountWarps_accounted _ _ _
  obtain ⟨stalled, foundStalled, related⟩ :=
    Pointwise.origin accounted found
  have stalledCompleted : stalled.state = .completed := by
    rw [← related.state, completed]
  have same : sm.timed[position]? = some stalled :=
    Latency.accountWarps_notReady foundStalled
      (by rw [stalledCompleted]; exact nofun)
  rw [found, Option.some.injEq] at same
  subst same
  have memberStalls := List.mem_of_getElem? foundStalled
  obtain ⟨before, isBefore, rfl⟩ := List.mem_map.mp memberStalls
  have waited := before.tickStall_waited sm.counters.cycles
  have beforeCompleted := waited.completed_iff.mp completed
  have unchanged : before.tickStall sm.counters.cycles = before := by
    simp [Warp.tickStall, beforeCompleted]
  rw [unchanged]
  exact rested before isBefore beforeCompleted

/-- The issued warp has no wait left. -/
theorem issued?_wait
    [LawfulWarpScheduler σ]
    {index : Nat}
    {warp : Warp}
    (uncompleted : sm.isCompleted = false)
    (selected : sm.issued? = some (index, warp)) :
    warp.currentWaitCycles = 0 := by
  have ready := SM.issued?_ready selected
  have found := SM.issued?_timed selected
  have idShape := selectedId_eq uncompleted
  unfold SM.timed SM.accountSelection at found
  dsimp only at found
  rw [idShape, selected, SM.accountWarps_warps, List.getElem?_map] at found
  obtain ⟨stalled, _, shape⟩ := Option.map_eq_some_iff.mp found
  have accounted :=
    SM.accountWarp_accounted (some warp.warpId) {} stalled
  change (SM.accountWarp (some warp.warpId) {} stalled).2 = warp at shape
  rw [shape] at accounted
  have stalledReady : stalled.state = .ready := by
    rw [← accounted.state, ready]
  rw [← shape, SM.accountWarp, if_pos stalledReady,
    if_pos (congrArg some accounted.core.warpId)]
  rfl

/-- Issuing a warp without a wait leaves no completed warp with one. -/
theorem Rested.issue
    {warps final : List Warp}
    {index : Nat}
    {warp : Warp}
    (rested : Rested warps)
    (found : warps[index]? = some warp)
    (none : warp.currentWaitCycles = 0)
    (step : SM.IssueStep kernel warps index warp memory final memory') :
    Rested final := by
  intro changed member completed
  obtain ⟨position, foundChanged⟩ := List.mem_iff_getElem?.mp member
  have sameWaits :=
    congrArg (fun waits => waits[position]?) (issue_waits found none step)
  simp only [List.getElem?_map, foundChanged, Option.map_some] at sameWaits
  by_cases same : position = index
  · rw [same, found, Option.map_some, Option.some.injEq] at sameWaits
    exact sameWaits.trans none
  · obtain ⟨other, foundOther, _, state⟩ := step.other same foundChanged
    rw [foundOther, Option.map_some, Option.some.injEq] at sameWaits
    rcases state with kept | ⟨_, ready⟩
    · exact
        sameWaits.trans
          (rested other (List.mem_of_getElem? foundOther)
            (kept.symm.trans completed))
    · rw [ready] at completed
      cases completed

/-- What a tick does to the waits, with the warps told apart by id. -/
theorem tick_waits
    [LawfulWarpScheduler σ]
    (scheduled : sm.scheduler.isSome = true)
    (rested : Rested sm.warps)
    (ran : sm.tick kernel memory = .ok (after, memory')) :
    Rested after.warps ∧
      after.counters.totalWarpWaitCycles + totalWaits after.warps =
        sm.counters.totalWarpWaitCycles + totalWaits sm.warps +
          if sm.isCompleted then
            0
          else
            sm.tickStalls.warps.countP fun warp =>
              warp.state == .ready &&
                (sm.issued?.map fun issued => issued.2.warpId) !=
                  some warp.warpId := by
  cases SM.ticking ran with
  | completed done =>
      rw [if_pos done]
      exact ⟨rested, rfl⟩
  | unscheduled _ none =>
      rw [none] at scheduled
      cases scheduled
  | idle uncompleted _ _ =>
      have moved := timed_waits uncompleted
      rw [(SM.idle_ledger sm.accounted).2.1, idle_counters uncompleted,
        uncompleted, if_neg Bool.false_ne_true]
      exact ⟨rested.timed, moved⟩
  | issued uncompleted _ selected issues =>
      have moved := timed_waits uncompleted
      have found := SM.issued?_timed selected
      have none := issued?_wait uncompleted selected
      obtain ⟨_, _, step⟩ := SM.issue_ok (by exact found) issues
      refine ⟨rested.timed.issue found none step, ?_⟩
      rw [uncompleted, if_neg Bool.false_ne_true, ← moved,
        (issue_sameTimes issues).totalWarpWaitCycles, totalWaits,
        issue_waits found none step]
      rfl

/-- A warp's id is that of its identity. -/
theorem ids_of_identities
    {first second : List Warp}
    (same : first.map Warp.identity = second.map Warp.identity) :
    first.map Warp.warpId = second.map Warp.warpId := by
  have ids := congrArg (List.map Prod.fst) same
  simpa [List.map_map, Function.comp_def, Warp.identity] using ids

/-- The issued warp's id is found at its position. -/
theorem issued?_id
    {index : Nat}
    {warp : Warp}
    (selected : sm.issued? = some (index, warp)) :
    (sm.warps.map Warp.warpId)[index]? = some warp.warpId := by
  obtain ⟨before, found, waited⟩ := SM.issued?_waited selected
  rw [List.getElem?_map, found, Option.map_some, waited.core.warpId]

/-- With distinct ids, the warps told apart by id are told apart by position. -/
theorem waiting_eq
    (distinct : (sm.warps.map Warp.warpId).Nodup)
    (uncompleted : sm.isCompleted = false) :
    Log.waiting sm =
      sm.tickStalls.warps.countP fun warp =>
        warp.state == .ready &&
          (sm.issued?.map fun issued => issued.2.warpId) !=
            some warp.warpId := by
  rw [Log.waiting, uncompleted, if_neg Bool.false_ne_true]
  conv_rhs =>
    rw [← List.zipIdx_map_fst 0 sm.tickStalls.warps, List.countP_map]
  refine List.countP_congr fun placed member => ?_
  have found := List.mem_zipIdx_iff_getElem?.mp member
  have placedId :
      (sm.warps.map Warp.warpId)[placed.2]? = some placed.1.warpId := by
    rw [← tickStalls_ids, List.getElem?_map, found, Option.map_some]
  rw [Function.comp_apply, Bool.and_eq_true, Bool.and_eq_true]
  refine and_congr_right fun _ => ?_
  cases selected : sm.issued? with
  | none => rfl
  | some issued =>
      have issuedId := issued?_id selected
      rw [Option.map_some, Option.map_some, bne_iff_ne, bne_iff_ne]
      refine not_congr ?_
      rw [Option.some.injEq, ← issuedId, ← placedId]
      constructor
      · intro same
        rw [same]
      · intro same
        have inside :=
          (List.getElem?_eq_some_iff.mp issuedId).1
        exact (List.getElem?_inj inside distinct).mp same

/-! ## The entries of the issue counts -/

/-- Entries for new warps keep the map ordered. -/
theorem ordered_initializeAll
    {counts : List (Nat × Nat)}
    (ordered : Ordered counts)
    (warps : List Warp) :
    Ordered (initializeAll counts warps) := by
  unfold initializeAll
  induction warps generalizing counts with
  | nil => exact ordered
  | cons warp rest inductionHypothesis =>
      exact inductionHypothesis (ordered.upsert warp.warpId id)

/-- The new entries are those of the warps. -/
theorem mem_keys_initializeAll
    {counts : List (Nat × Nat)}
    {warps : List Warp}
    {id : Nat} :
    id ∈ (initializeAll counts warps).map Prod.fst ↔
      id ∈ counts.map Prod.fst ∨ id ∈ warps.map Warp.warpId := by
  unfold initializeAll
  induction warps generalizing counts with
  | nil => simp
  | cons warp rest inductionHypothesis =>
      rw [List.foldl_cons, inductionHypothesis, mem_keys_upsert,
        List.map_cons, List.mem_cons, @or_comm (id = warp.warpId), or_assoc]

/-- A new entry starts at zero, an old one keeps its value. -/
theorem lookup_initializeAll
    {counts : List (Nat × Nat)}
    (ordered : Ordered counts)
    {warps : List Warp}
    {id : Nat} :
    (initializeAll counts warps).lookup id =
      if id ∈ warps.map Warp.warpId then
        some ((counts.lookup id).getD 0)
      else
        counts.lookup id := by
  unfold initializeAll
  induction warps generalizing counts with
  | nil => simp
  | cons warp rest inductionHypothesis =>
      rw [List.foldl_cons,
        inductionHypothesis (ordered.upsert warp.warpId _)]
      by_cases same : id = warp.warpId
      · subst same
        rw [lookup_upsert_self ordered]
        simp
      · rw [lookup_upsert_ne same]
        simp [same]

/-- The log and the multiprocessor agree on the warps and their ids. -/
structure Tracked (sm : SM σ) (log : Log) : Prop where
  ordered : Ordered sm.counters.warpIssueCounts
  keys :
    ∀ id,
      id ∈ sm.counters.warpIssueCounts.map Prod.fst ↔ id ∈ log.ids
  tags :
    List.Forall₂
      (fun warp tag => log.ids[tag]? = some warp.warpId)
      sm.warps log.tags
  resident : (sm.warps.map Warp.warpId).Sublist log.ids

/-- Admission appends the ids of the block. -/
theorem Log.ids_allocate
    (log : Log)
    (block : ThreadBlock) :
    (log.allocate block).ids =
      log.ids ++ block.warps.map Warp.warpId := by
  simp [Log.ids, Log.allocate]

/-- The tags of an admitted block name its warps. -/
theorem tags_of_allocate
    (ids : List Nat)
    (warps : List Warp) :
    List.Forall₂
      (fun warp tag =>
        (ids ++ warps.map Warp.warpId)[tag]? = some warp.warpId)
      warps (List.range' ids.length warps.length) := by
  refine Pointwise.of_positions (by simp) ?_
  intro position warp tag found isTag
  obtain ⟨_, tagShape⟩ := List.getElem?_eq_some_iff.mp isTag
  rw [List.getElem_range', Nat.one_mul] at tagShape
  rw [← tagShape, List.getElem?_append_right (Nat.le_add_right _ _),
    Nat.add_sub_cancel_left, List.getElem?_map, found, Option.map_some]

/-- The ids after a tick are those before. -/
theorem tick_ids
    (ran : sm.tick kernel memory = .ok (after, memory')) :
    after.warps.map Warp.warpId = sm.warps.map Warp.warpId :=
  ids_of_identities (Barrier.tick_identities ran)

/-- What relates ids to labels carries over to warps of equal ids. -/
theorem labels_congr
    {α : Type}
    {first second : List Warp}
    {labels : List α}
    (related : Nat → α → Prop)
    (same : second.map Warp.warpId = first.map Warp.warpId)
    (pointwise :
      List.Forall₂ (fun warp label => related warp.warpId label)
        first labels) :
    List.Forall₂ (fun warp label => related warp.warpId label)
      second labels := by
  have byId :
      List.Forall₂ related (first.map Warp.warpId) labels :=
    List.forall₂_map_left_iff.mpr pointwise
  rw [← same] at byId
  exact List.forall₂_map_left_iff.mp byId

/-- Over its life a multiprocessor agrees with its log. -/
theorem Lifetime.tracked
    (life : Lifetime sm log ticked) :
    Tracked sm log := by
  induction life with
  | fresh vacant zero _ =>
      refine ⟨?_, ?_, ?_, ?_⟩
      · rw [zero]
        exact .nil
      · rw [zero]
        exact fun id => Iff.rfl
      · rw [vacant.warps]
        exact .nil
      · rw [vacant.warps]
        exact .slnil
  | allocate earlier block req inductionHypothesis =>
      rename_i before earlierLog _
      have admits := before.allocateBlock_admits block req
      refine ⟨?_, ?_, ?_, ?_⟩
      · rw [allocateBlock_counters]
        exact ordered_initializeAll inductionHypothesis.ordered block.warps
      · intro id
        rw [allocateBlock_counters, Log.ids_allocate, List.mem_append,
          mem_keys_initializeAll, inductionHypothesis.keys]
      · rw [admits.warps, Log.ids_allocate]
        refine List.rel_append ?_ (tags_of_allocate _ _)
        refine inductionHypothesis.tags.imp fun warp tag named => ?_
        have inside := (List.getElem?_eq_some_iff.mp named).1
        rw [List.getElem?_append_left inside, named]
      · rw [admits.warps, Log.ids_allocate, List.map_append]
        exact
          inductionHypothesis.resident.append (List.Sublist.refl _)
  | release _ inductionHypothesis =>
      rw [SM.releaseCompletedBlocks_eq]
      exact
        ⟨inductionHypothesis.ordered, inductionHypothesis.keys,
          Pointwise.filter_zip _ inductionHypothesis.tags,
          (List.filter_sublist.map _).trans inductionHypothesis.resident⟩
  | tick earlier ran inductionHypothesis =>
      rename_i before final earlierLog _ _ _ _
      have sameIds := tick_ids ran
      refine
        ⟨?_, ?_,
          labels_congr (fun id tag => earlierLog.ids[tag]? = some id)
            sameIds inductionHypothesis.tags,
          ?_⟩
      · cases tickTimes earlier.scheduled ran with
        | completed _ same =>
            rw [same]
            exact inductionHypothesis.ordered
        | idle _ _ _ _ issues =>
            rw [issues]
            exact inductionHypothesis.ordered
        | issued _ _ _ _ issues =>
            rw [issues]
            exact inductionHypothesis.ordered.upsert _ _
      · intro id
        change _ ↔ id ∈ earlierLog.ids
        rw [← inductionHypothesis.keys]
        cases tickTimes earlier.scheduled ran with
        | completed _ same => rw [same]
        | idle _ _ _ _ issues => rw [issues]
        | issued _ selected _ _ issues =>
            rw [issues, mem_keys_upsert]
            refine or_iff_right_of_imp ?_
            rintro rfl
            rw [inductionHypothesis.keys]
            exact
              inductionHypothesis.resident.subset
                (List.mem_of_getElem? (issued?_id selected))
      · rw [sameIds]
        exact inductionHypothesis.resident

/-- The log of a tick that issues nothing counts no issue. -/
theorem tick_issues_none
    (nothing : sm.issued? = none) :
    (log.tick sm).issues = log.issues := by
  funext tag
  simp [Log.tick, Log.issuedTag?, nothing]

/-- The tag of the issued warp names its id. -/
theorem issuedTag?_eq
    {index : Nat}
    {warp : Warp}
    (tracked : Tracked sm log)
    (selected : sm.issued? = some (index, warp)) :
    ∃ tag,
      log.issuedTag? sm = some tag ∧
        log.ids[tag]? = some warp.warpId := by
  obtain ⟨before, found, waited⟩ := SM.issued?_waited selected
  obtain ⟨tag, foundTag, named⟩ := Pointwise.partner tracked.tags found
  refine ⟨tag, ?_, ?_⟩
  · rw [Log.issuedTag?, selected, Option.bind_some, foundTag]
  · rw [named, waited.core.warpId]

/-- With distinct ids, every warp's entry counts its own issues. -/
theorem Lifetime.counts_exact
    (life : Lifetime sm log ticked)
    (distinct : log.ids.Nodup) :
    (∀ tag, log.ids.length ≤ tag → log.issues tag = 0) ∧
      ∀ tag id, log.ids[tag]? = some id →
        sm.counters.warpIssueCounts.lookup id = some (log.issues tag) := by
  induction life with
  | fresh _ _ _ => exact ⟨fun _ _ => rfl, fun _ _ => nofun⟩
  | allocate earlier block req inductionHypothesis =>
      rename_i before earlierLog _
      rw [Log.ids_allocate] at distinct
      have tracked := earlier.tracked
      obtain ⟨unused, counted⟩ :=
        inductionHypothesis (List.Nodup.of_append_left distinct)
      constructor
      · intro tag outside
        rw [Log.ids_allocate, List.length_append] at outside
        exact unused tag ((Nat.le_add_right _ _).trans outside)
      · intro tag id found
        rw [Log.ids_allocate] at found
        change _ = some (earlierLog.issues tag)
        rw [allocateBlock_counters, lookup_initializeAll tracked.ordered]
        by_cases old : tag < earlierLog.ids.length
        · rw [List.getElem?_append_left old] at found
          rw [counted tag id found]
          split <;> rfl
        · have isNew := Nat.not_lt.mp old
          rw [List.getElem?_append_right isNew] at found
          have member := List.mem_of_getElem? found
          have missing :
              id ∉ before.counters.warpIssueCounts.map Prod.fst := by
            rw [tracked.keys]
            exact fun inOld =>
              (List.nodup_append.mp distinct).2.2 id inOld id member rfl
          rw [if_pos member, lookup_eq_none missing, unused tag isNew]
          rfl
  | release _ inductionHypothesis =>
      rw [SM.releaseCompletedBlocks_eq]
      exact inductionHypothesis distinct
  | tick earlier ran inductionHypothesis =>
      rename_i before final earlierLog _ _ _ _
      change earlierLog.ids.Nodup at distinct
      obtain ⟨unused, counted⟩ := inductionHypothesis distinct
      change
        (∀ tag, earlierLog.ids.length ≤ tag →
            (earlierLog.tick before).issues tag = 0) ∧
          ∀ tag id, earlierLog.ids[tag]? = some id →
            final.counters.warpIssueCounts.lookup id =
              some ((earlierLog.tick before).issues tag)
      cases tickTimes earlier.scheduled ran with
      | completed done same =>
          rw [same, tick_issues_none (issued?_of_completed done)]
          exact ⟨unused, counted⟩
      | idle _ nothing _ _ issues =>
          rw [issues, tick_issues_none nothing]
          exact ⟨unused, counted⟩
      | issued uncompleted selected cycles noReadyWarp issues =>
          rename_i index warp
          obtain ⟨own, isOwn, named⟩ :=
            issuedTag?_eq earlier.tracked selected
          have inside := (List.getElem?_eq_some_iff.mp named).1
          constructor
          · intro tag outside
            have other : own ≠ tag := (inside.trans_le outside).ne
            simp [Log.tick, isOwn, other, unused tag outside]
          · intro tag id found
            rw [issues]
            by_cases same : own = tag
            · subst same
              rw [named, Option.some.injEq] at found
              subst found
              rw [lookup_upsert_self earlier.tracked.ordered,
                counted own _ named]
              simp [Log.tick, isOwn]
            · have otherId : id ≠ warp.warpId := by
                rintro rfl
                exact
                  same
                    ((List.getElem?_inj inside distinct).mp
                      (named.trans found.symm))
              rw [lookup_upsert_ne otherId, counted tag id found]
              simp [Log.tick, isOwn, same]

/-- Dropping warps without a wait keeps the sum of the waits. -/
theorem totalWaits_filter
    {warps : List Warp}
    {keep : Warp → Bool}
    (none :
      ∀ warp ∈ warps, keep warp = false → warp.currentWaitCycles = 0) :
    totalWaits (warps.filter keep) = totalWaits warps := by
  unfold totalWaits
  induction warps with
  | nil => rfl
  | cons warp rest inductionHypothesis =>
      obtain ⟨own, others⟩ := List.forall_mem_cons.mp none
      rw [List.map_cons, List.sum_cons, ← inductionHypothesis others,
        List.filter_cons]
      cases kept : keep warp with
      | true => rfl
      | false =>
          rw [own kept, Nat.zero_add]
          rfl

/-- With distinct ids, all waits of built blocks are accounted for. -/
theorem Lifetime.waits_exact
    [LawfulWarpScheduler σ]
    (life : Lifetime sm log ticked)
    (built : ∀ block ∈ log.blocks, Barrier.Built block)
    (distinct : log.ids.Nodup) :
    Rested sm.warps ∧ WaitsExact sm log := by
  unfold WaitsExact
  induction life with
  | fresh vacant zero _ =>
      rw [vacant.warps, zero]
      exact ⟨fun _ => nofun, rfl⟩
  | allocate earlier block req inductionHypothesis =>
      rename_i before earlierLog _
      obtain ⟨earlierBuilt, isBuilt⟩ := List.forall_mem_append.mp built
      rw [Log.ids_allocate] at distinct
      obtain ⟨rested, exact⟩ :=
        inductionHypothesis earlierBuilt
          (List.Nodup.of_append_left distinct)
      have fresh :
          ∀ warp ∈ block.warps, warp.currentWaitCycles = 0 := by
        intro warp member
        obtain ⟨_, _, _, _, _, _, rfl⟩ :=
          (isBuilt block List.mem_cons_self).shape member
        rfl
      have none : totalWaits block.warps = 0 := by
        have dropped :
            totalWaits (block.warps.filter fun _ => false) =
              totalWaits block.warps :=
          totalWaits_filter fun warp member _ => fresh warp member
        rw [← dropped, List.filter_false]
        rfl
      have admits := before.allocateBlock_admits block req
      rw [admits.warps]
      constructor
      · intro warp member _
        rcases List.mem_append.mp member with old | new
        · exact rested warp old (by assumption)
        · exact fresh warp new
      · rw [allocateBlock_counters, totalWaits, List.map_append,
          List.sum_append]
        change _ + (totalWaits before.warps + totalWaits block.warps) = _
        rw [none]
        exact exact
  | release earlier inductionHypothesis =>
      rename_i before earlierLog _
      obtain ⟨rested, exact⟩ := inductionHypothesis built distinct
      rw [SM.releaseCompletedBlocks_eq]
      constructor
      · exact fun warp member =>
          rested warp (List.mem_of_mem_filter member)
      · dsimp only
        rw [totalWaits_filter, exact]
        · rfl
        · intro warp member dropped
          rw [Bool.not_eq_false', List.any_eq_true] at dropped
          obtain ⟨block, isFinished, belongs⟩ := dropped
          have completed := (SM.mem_finishedBlocks.mp isFinished).2
          rw [SM.allCompleted, List.all_eq_true] at completed
          have own := completed warp member
          rw [belongs, Bool.not_true, Bool.false_or, beq_iff_eq] at own
          exact rested warp member own
  | tick earlier ran inductionHypothesis =>
      rename_i before final earlierLog _ _ _ _
      change earlierLog.ids.Nodup at distinct
      obtain ⟨rested, exact⟩ := inductionHypothesis built distinct
      obtain ⟨restedAfter, moved⟩ :=
        tick_waits earlier.scheduled rested ran
      refine ⟨restedAfter, ?_⟩
      have resident :=
        earlier.tracked.resident.nodup distinct
      rw [moved, exact]
      change _ = earlierLog.waited + Log.waiting before
      congr 1
      cases done : before.isCompleted with
      | true => rw [if_pos rfl, Log.waiting, done, if_pos rfl]
      | false =>
          rw [if_neg Bool.false_ne_true, waiting_eq resident done]

omit [WarpScheduler σ] in
/-- There are as many entries as distinct ids. -/
theorem Tracked.length_eq_iff
    (tracked : Tracked sm log) :
    sm.counters.warpIssueCounts.length = log.ids.length ↔
      log.ids.Nodup := by
  have keysNodup :
      (sm.counters.warpIssueCounts.map Prod.fst).Nodup :=
    tracked.ordered.imp fun below => below.ne
  have sameIds :
      (sm.counters.warpIssueCounts.map Prod.fst).toFinset =
        log.ids.toFinset := by
    ext id
    rw [List.mem_toFinset, List.mem_toFinset, tracked.keys]
  have lengths := List.toFinset_card_of_nodup keysNodup
  rw [sameIds, List.length_map] at lengths
  rw [← lengths]
  exact Multiset.toFinset_card_eq_card_iff_nodup

/--
Over the life of a multiprocessor that is given built blocks, the wait and
issue metrics are exact precisely when no two of its warps ever shared an id.
-/
theorem metrics_exact_iff
    [LawfulWarpScheduler σ]
    (life : Lifetime sm log ticked)
    (built : ∀ block ∈ log.blocks, Barrier.Built block) :
    WaitsExact sm log ∧ IssuesExact sm log ↔ log.ids.Nodup := by
  have lengths := life.tracked.length_eq_iff
  constructor
  · rintro ⟨_, entries, _⟩
    exact lengths.mp entries
  · intro distinct
    exact
      ⟨(life.waits_exact built distinct).2, lengths.mpr distinct,
        (life.counts_exact distinct).2⟩

end Warps

/-- Some warp is ready at the next selection, and the policy can see it. -/
def CanIssue (sm : SM Scheduler) : Prop :=
  (∃ index, ReadyAt sm.tickStalls.warps index) ∧
    ¬ Barrier.PolicyBlocked sm

/--
Over the life of a multiprocessor its cycles are the ticks that issued a warp
plus the counted losses exactly when every tick of an uncompleted state found a
ready warp that its policy could see.
-/
theorem cycles_accounted_iff
    {sm : SM Scheduler}
    {log : Log}
    {ticked : List (SM Scheduler)}
    (life : Lifetime sm log ticked) :
    CyclesAccounted sm log ↔
      ∀ state ∈ ticked, state.isCompleted = false → CanIssue state := by
  rw [life.cyclesAccounted_iff]
  refine
    forall_congr' fun state =>
      forall_congr' fun member =>
        forall_congr' fun uncompleted => ?_
  obtain ⟨scheduler, isScheduler⟩ :=
    Option.isSome_iff_exists.mp (life.ticked_scheduled state member)
  rw [issued?_isSome_iff uncompleted]
  constructor
  · rintro ⟨index, selected, ready⟩
    have selects : Barrier.SelectsReady state := ⟨index, selected, ready⟩
    exact
      ⟨⟨index, ready⟩,
        (Barrier.selectsReady_iff isScheduler ready).mp selects⟩
  · rintro ⟨⟨index, ready⟩, notBlocked⟩
    exact (Barrier.selectsReady_iff isScheduler ready).mpr notBlocked

/-- The log of the multiprocessor that is about to load. -/
def loadLog : Log :=
  Log.allocate {} (.narrow 0 1)

/-- It is alive. -/
theorem loadStart_lifetime :
    Lifetime Latency.loadStart loadLog [] :=
  (Lifetime.fresh (SM.vacantWith_vacant _) rfl rfl).allocate _ _

/-- A multiprocessor with three warps that are about to load. -/
def trioStart : SM Scheduler :=
  (SM.vacantWith Scheduler.greedy).allocateBlock (.narrow 0 3) ⟨0, 0⟩

/-- The states between its ticks. -/
def trioStates (round : Nat) : SM Scheduler :=
  (Latency.stepped 3)^[round] trioStart

/-- The logs of its ticks. -/
def trioLog : Nat → Log
  | 0 => Log.allocate {} (.narrow 0 3)
  | round + 1 => (trioLog round).tick (trioStates round)

/-- The states that were ticked, the last one first. -/
def trioTicked : Nat → List (SM Scheduler)
  | 0 => []
  | round + 1 => trioStates round :: trioTicked round

/-- The three warps are alive while their ticks do not throw. -/
theorem trio_lifetime
    {rounds : Nat}
    (areOk :
      ∀ round < rounds,
        ((trioStates round).tick Latency.loadKernel
          (Latency.loadMemory 3)).isOk = true) :
    Lifetime (trioStates rounds) (trioLog rounds) (trioTicked rounds) := by
  induction rounds with
  | zero =>
      exact
        (Lifetime.fresh (SM.vacantWith_vacant _) rfl rfl).allocate _ _
  | succ round inductionHypothesis =>
      obtain ⟨memory', ran⟩ :=
        Latency.tick_stepped (areOk round (Nat.lt_succ_self round))
      have life :=
        (inductionHypothesis fun earlier isEarlier =>
          areOk earlier (Nat.lt_succ_of_lt isEarlier)).tick ran
      rw [trioStates, Function.iterate_succ_apply']
      exact life

/-- Nine ticks that load, stall and wait issue every time. -/
theorem cycles_accounted_iff_load :
    CyclesAccounted (trioStates 9) (trioLog 9) ∧
      (trioStates 9).counters.cycles = 9 ∧
      ∀ state ∈ trioTicked 9,
        state.isCompleted = false → CanIssue state := by
  have life := @trio_lifetime 9 (by decide +kernel)
  have accounted : CyclesAccounted (trioStates 9) (trioLog 9) := by
    unfold CyclesAccounted
    decide +kernel
  exact
    ⟨accounted, by decide +kernel,
      (cycles_accounted_iff life).mp accounted⟩

/-- Nine ticks of one block count every wait and every issue. -/
theorem metrics_exact_iff_load :
    (trioLog 9).waited = 11 ∧ WaitsExact (trioStates 9) (trioLog 9) ∧
      IssuesExact (trioStates 9) (trioLog 9) := by
  have life := @trio_lifetime 9 (by decide +kernel)
  refine ⟨by decide +kernel, (metrics_exact_iff life ?_).mpr (by decide +kernel)⟩
  intro block member
  have isBlock : (trioLog 9).blocks = [.narrow 0 3] := rfl
  rw [isBlock, List.mem_singleton] at member
  rw [member]
  exact Barrier.built_narrow 0 3

/-- Two resident blocks share their entries and lose a wait. -/
theorem two_blocks_share_metrics :
    ¬ ∀ (sm : SM Scheduler) (log : Log) (ticked : List (SM Scheduler)),
        Lifetime sm log ticked →
        (∀ block ∈ log.blocks, Barrier.Built block) →
        WaitsExact sm log ∧ IssuesExact sm log := by
  intro exact
  let first : SM Scheduler := Latency.loadStart
  let both := first.allocateBlock (.narrow 1 1) ⟨0, 0⟩
  obtain ⟨_, ran⟩ := @Latency.tick_stepped 1 both (by decide +kernel)
  have life :=
    (loadStart_lifetime.allocate (.narrow 1 1) ⟨0, 0⟩).tick ran
  have law :=
    (exact _ _ _ life (by
      intro block member
      simp only [Log.tick, Log.allocate, loadLog, List.nil_append,
        List.singleton_append, List.mem_cons, List.not_mem_nil, or_false]
        at member
      rcases member with rfl | rfl
      · exact Barrier.built_narrow 0 1
      · exact Barrier.built_narrow 1 1)).1
  revert law
  unfold WaitsExact
  decide +kernel

/-- A cycle in which the only warp is stalled is not accounted for. -/
theorem stalled_cycle_is_lost :
    ¬ ∀ (sm : SM Scheduler) (log : Log) (ticked : List (SM Scheduler)),
        Lifetime sm log ticked → CyclesAccounted sm log := by
  intro accounted
  obtain ⟨_, first⟩ :=
    @Latency.tick_stepped 3 Latency.loadStart (by decide +kernel)
  obtain ⟨_, second⟩ :=
    @Latency.tick_stepped 3 (Latency.stepped 3 Latency.loadStart)
      (by decide +kernel)
  have law := accounted _ _ _ ((loadStart_lifetime.tick first).tick second)
  revert law
  unfold CyclesAccounted
  decide +kernel

end Accounting

end SimSm
