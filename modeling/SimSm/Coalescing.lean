import Mathlib.Order.Bounds.Basic
import SimSm.Traffic

namespace SimSm

/-!
# Coalescing

A warp access to global memory costs what its cache lines cost: neither the
order of the lanes nor how many of them share a line matters, and no fewer
transactions cover the lanes.
-/

open Outcome

namespace MemorySystem

/-- The numbers of the cache lines that some addresses are in. -/
def linesOf (lineSize : Nat) (addresses : List Nat) : Finset Nat :=
  (addresses.map (· / lineSize)).toFinset

/-- Aligned line bases with a line for every address. -/
structure Covers
    (lineSize : Nat)
    (addresses bases : List Nat) : Prop where
  aligned : ∀ base ∈ bases, lineSize ∣ base
  covered :
    ∀ address ∈ addresses,
      ∃ base ∈ bases, base ≤ address ∧ address < base + lineSize

section Lines

variable {lineSize : Nat}
variable {addresses others : List Nat}

theorem mem_coalesce
    (positive : 0 < lineSize)
    {base : Nat} :
    base ∈ coalesce addresses lineSize ↔
      ∃ line ∈ linesOf lineSize addresses, line * lineSize = base := by
  rw [coalesce, if_neg positive.ne', List.mem_insertionSort, List.mem_dedup]
  simp [linesOf]

/-- Only no addresses touch no line. -/
theorem linesOf_eq_empty :
    linesOf lineSize addresses = ∅ ↔ addresses = [] := by
  rw [linesOf, List.toFinset_eq_empty_iff, List.map_eq_nil_iff]

/-- The line bases of an access are in increasing order. -/
theorem sortedLT_coalesce
    (positive : 0 < lineSize) :
    (coalesce addresses lineSize).SortedLT := by
  rw [coalesce, if_neg positive.ne', List.sortedLT_iff_pairwise]
  have distinct :=
    (List.perm_insertionSort (· ≤ ·)
        (addresses.map (· / lineSize * lineSize)).dedup).nodup_iff.mpr
      (List.nodup_dedup _)
  exact
    (List.pairwise_insertionSort (· ≤ ·) _).imp₂
      (fun _ _ ordered differ => lt_of_le_of_ne ordered differ) distinct

/-- The lines that are touched determine the transactions. -/
theorem coalesce_congr
    (positive : 0 < lineSize)
    (same : linesOf lineSize addresses = linesOf lineSize others) :
    coalesce addresses lineSize = coalesce others lineSize := by
  refine
    (sortedLT_coalesce positive).eq_of_mem_iff (sortedLT_coalesce positive)
      fun base => ?_
  rw [mem_coalesce positive, mem_coalesce positive, same]

/-- There is one transaction for each line. -/
theorem length_coalesce
    (positive : 0 < lineSize) :
    (coalesce addresses lineSize).length =
      (linesOf lineSize addresses).card := by
  have bases :
      (coalesce addresses lineSize).toFinset =
        (linesOf lineSize addresses).image (· * lineSize) := by
    ext base
    rw [List.mem_toFinset, mem_coalesce positive, Finset.mem_image]
  rw [← List.toFinset_card_of_nodup (sortedLT_coalesce positive).nodup,
    bases, Finset.card_image_of_injective]
  exact fun _ _ equal => Nat.eq_of_mul_eq_mul_right positive equal

/-- The transactions cover the addresses. -/
theorem covers_coalesce
    (positive : 0 < lineSize) :
    Covers lineSize addresses (coalesce addresses lineSize) where
  aligned := by
    intro base member
    obtain ⟨line, _, rfl⟩ := (mem_coalesce positive).mp member
    exact Nat.dvd_mul_left _ _
  covered := by
    intro address member
    refine
      ⟨address / lineSize * lineSize, (mem_coalesce positive).mpr ?_,
        Nat.div_mul_le_self _ _, ?_⟩
    · exact
        ⟨_, List.mem_toFinset.mpr (List.mem_map.mpr ⟨_, member, rfl⟩), rfl⟩
    · rw [Nat.mul_comm]
      exact Nat.lt_mul_div_succ address positive

/-- An aligned base with an address in its line is the base of that line. -/
theorem div_eq_of_covered
    {address base : Nat}
    (aligned : lineSize ∣ base)
    (above : base ≤ address)
    (below : address < base + lineSize) :
    base / lineSize = address / lineSize := by
  obtain ⟨line, rfl⟩ := aligned
  have positive : 0 < lineSize := by omega
  rw [Nat.mul_div_cancel_left _ positive]
  refine (Nat.div_eq_of_lt_le ?_ ?_).symm
  · rwa [Nat.mul_comm]
  · rw [Nat.succ_mul, Nat.mul_comm]
    exact below

/-- No fewer transactions cover the addresses. -/
theorem length_coalesce_least
    (positive : 0 < lineSize) :
    IsLeast {count | ∃ bases, Covers lineSize addresses bases ∧
        bases.length = count}
      (coalesce addresses lineSize).length := by
  refine ⟨⟨_, covers_coalesce positive, rfl⟩, ?_⟩
  rintro _ ⟨bases, covers, rfl⟩
  have each : linesOf lineSize addresses ⊆ linesOf lineSize bases := by
    intro line member
    obtain ⟨address, isAddress, rfl⟩ :=
      List.mem_map.mp (List.mem_toFinset.mp member)
    obtain ⟨base, isBase, above, below⟩ := covers.covered address isAddress
    rw [← div_eq_of_covered (covers.aligned base isBase) above below]
    exact List.mem_toFinset.mpr (List.mem_map.mpr ⟨base, isBase, rfl⟩)
  calc
    (coalesce addresses lineSize).length =
        (linesOf lineSize addresses).card := length_coalesce positive
    _ ≤ (linesOf lineSize bases).card := Finset.card_le_card each
    _ ≤ (bases.map (· / lineSize)).length := List.toFinset_card_le _
    _ = bases.length := List.length_map _

end Lines

/-! ## The cost of an access -/

section Accesses

variable {memory after : MemorySystem}
variable {latencyOf : Nat → MemoryM (Nat × Nat)}
variable {onShared : Nat → β → MemoryM (α × Nat)}
variable {onGlobal : Nat → β → MemoryM α}
variable {accesses : List (Nat × β)}
variable {values : List α}
variable {timing : WarpMemoryResult}

/-- The timing of a global access whose lines were charged. -/
def lineTiming
    (transactions : List Nat)
    (charged : Nat × Nat) :
    WarpMemoryResult where
  totalLatency :=
    charged.1 + if 0 < transactions.length then transactions.length - 1 else 0
  numTransactions := transactions.length
  dirtyEvictionWritebacks := charged.2

/-- A global access charges its lines and then moves its data. -/
theorem warpAccess_charges
    (isGlobal : ∀ access ∈ accesses, isShared access.1 = false)
    (nonempty : accesses ≠ [])
    (ran :
      warpAccess latencyOf onShared onGlobal accesses memory =
        .ok (values, timing) after) :
    ∃ charged middle,
      chargeTransactions latencyOf
          (coalesce (accesses.map Prod.fst) memory.l1Cache.lineSize) 1 0
          memory = .ok charged middle ∧
        globalAccesses onGlobal accesses middle = .ok values after ∧
        timing =
          lineTiming
            (coalesce (accesses.map Prod.fst) memory.l1Cache.lineSize)
            charged := by
  cases accesses with
  | nil => exact (nonempty rfl).elim
  | cons first rest =>
      have notShared : isShared first.1 = false :=
        isGlobal first List.mem_cons_self
      have uniform :
          ¬ (((first :: rest).map Prod.fst).any fun address =>
              isShared address != isShared first.1) = true := by
        intro anyDiffers
        obtain ⟨address, member, differs⟩ := List.any_eq_true.mp anyDiffers
        obtain ⟨access, isAccess, rfl⟩ := List.mem_map.mp member
        rw [isGlobal access isAccess, notShared] at differs
        cases differs
      unfold warpAccess at ran
      simp only [List.map_cons] at ran uniform
      rw [if_neg uniform, notShared, if_neg Bool.false_ne_true] at ran
      obtain ⟨_, _, got, later⟩ := state_bind_ok.mp ran
      obtain ⟨rfl, rfl⟩ := state_get_ok.mp got
      obtain ⟨charged, middle, charges, later⟩ := state_bind_ok.mp later
      obtain ⟨_, _, moved, returned⟩ := state_bind_ok.mp later
      obtain ⟨shape, rfl⟩ := state_pure_ok.mp returned
      obtain ⟨rfl, rfl⟩ := Prod.mk.inj shape
      exact ⟨charged, middle, charges, moved, rfl⟩

/-- An access of no lanes does nothing. -/
theorem warpAccess_nil
    (ran :
      warpAccess latencyOf onShared onGlobal [] memory =
        .ok (values, timing) after) :
    timing = { totalLatency := 0, numTransactions := 0 } ∧ after = memory := by
  obtain ⟨shape, rfl⟩ := state_pure_ok.mp ran
  exact ⟨(Prod.mk.inj shape).2.symm, rfl⟩

/--
Accesses that touch the same lines return the same timing and leave the same
caches, whatever their data accesses do.
-/
theorem warpAccess_alike
    {otherShared : Nat → δ → MemoryM (γ × Nat)}
    {otherGlobal : Nat → δ → MemoryM γ}
    {others : List (Nat × δ)}
    {otherValues : List γ}
    {otherTiming : WarpMemoryResult}
    {otherAfter : MemorySystem}
    (keeps : ∀ address argument, KeepsCaches (onGlobal address argument))
    (otherKeeps :
      ∀ address argument, KeepsCaches (otherGlobal address argument))
    (positive : 0 < memory.l1Cache.lineSize)
    (isGlobal : ∀ access ∈ accesses, isShared access.1 = false)
    (otherIsGlobal : ∀ access ∈ others, isShared access.1 = false)
    (sameLines :
      linesOf memory.l1Cache.lineSize (accesses.map Prod.fst) =
        linesOf memory.l1Cache.lineSize (others.map Prod.fst))
    (ran :
      warpAccess latencyOf onShared onGlobal accesses memory =
        .ok (values, timing) after)
    (otherRan :
      warpAccess latencyOf otherShared otherGlobal others memory =
        .ok (otherValues, otherTiming) otherAfter) :
    timing = otherTiming ∧
      after.l1Cache = otherAfter.l1Cache ∧
      after.l2Cache = otherAfter.l2Cache := by
  have sameEmpty : accesses = [] ↔ others = [] := by
    calc
      accesses = [] ↔ accesses.map Prod.fst = [] := List.map_eq_nil_iff.symm
      _ ↔ others.map Prod.fst = [] := by
        rw [← linesOf_eq_empty, sameLines, linesOf_eq_empty]
      _ ↔ others = [] := List.map_eq_nil_iff
  by_cases empty : accesses = []
  · obtain rfl := sameEmpty.mp empty
    subst empty
    obtain ⟨rfl, rfl⟩ := warpAccess_nil ran
    obtain ⟨rfl, rfl⟩ := warpAccess_nil otherRan
    exact ⟨rfl, rfl, rfl⟩
  · obtain ⟨charged, middle, charges, moved, rfl⟩ :=
      warpAccess_charges isGlobal empty ran
    obtain ⟨otherCharged, otherMiddle, otherCharges, otherMoved, rfl⟩ :=
      warpAccess_charges otherIsGlobal (sameEmpty.not.mp empty) otherRan
    rw [← coalesce_congr positive sameLines] at otherCharges ⊢
    rw [charges] at otherCharges
    cases otherCharges
    obtain ⟨_, l1Cache, l2Cache⟩ :=
      globalAccesses_keeps keeps _ _ _ _ moved
    obtain ⟨_, otherL1Cache, otherL2Cache⟩ :=
      globalAccesses_keeps otherKeeps _ _ _ _ otherMoved
    exact
      ⟨rfl, l1Cache.trans otherL1Cache.symm, l2Cache.trans otherL2Cache.symm⟩

/-- A global access makes the least number of transactions. -/
theorem warpAccess_least
    (positive : 0 < memory.l1Cache.lineSize)
    (isGlobal : ∀ access ∈ accesses, isShared access.1 = false)
    (ran :
      warpAccess latencyOf onShared onGlobal accesses memory =
        .ok (values, timing) after) :
    IsLeast {count | ∃ bases,
        Covers memory.l1Cache.lineSize (accesses.map Prod.fst) bases ∧
        bases.length = count}
      timing.numTransactions := by
  by_cases empty : accesses = []
  · subst empty
    obtain ⟨rfl, _⟩ := warpAccess_nil ran
    have none : (coalesce [] memory.l1Cache.lineSize).length = 0 :=
      length_coalesce positive
    rw [← none]
    exact length_coalesce_least positive
  · obtain ⟨_, _, _, _, rfl⟩ := warpAccess_charges isGlobal empty ran
    exact length_coalesce_least positive

end Accesses

/-! ## The three warp instructions -/

/-- The memory instructions of a warp. -/
inductive WarpInstruction where
  | load
  | store
  | atomicAdd
  deriving Repr, DecidableEq

namespace WarpInstruction

/-- Perform an instruction; a load has no use for the values. -/
def perform
    (accesses : List (Nat × Word)) :
    WarpInstruction → MemoryM WarpMemoryResult
  | .load => do
      let (_, timing) ← warpLoad (accesses.map Prod.fst)
      pure timing
  | .store => warpStore accesses
  | .atomicAdd => warpAtomicAdd accesses

/-- Whether an instruction writes its lines. -/
def isWrite : WarpInstruction → Bool
  | .load => false
  | .store | .atomicAdd => true

/-- What an instruction charges for a line. -/
def latencyOf (instruction : WarpInstruction) : Nat → MemoryM (Nat × Nat) :=
  if instruction.isWrite then writeLatency else readLatency

/-- Every instruction is an access that leaves the caches to its lines. -/
theorem perform_access
    {instruction : WarpInstruction}
    {accesses : List (Nat × Word)}
    {memory after : MemorySystem}
    {timing : WarpMemoryResult}
    (isGlobal : ∀ access ∈ accesses, isShared access.1 = false)
    (ran : instruction.perform accesses memory = .ok timing after) :
    ∃ (α β : Type) (onShared : Nat → β → MemoryM (α × Nat))
      (onGlobal : Nat → β → MemoryM α) (lanes : List (Nat × β))
      (values : List α),
      lanes.map Prod.fst = accesses.map Prod.fst ∧
        (∀ lane ∈ lanes, isShared lane.1 = false) ∧
        (∀ address argument, KeepsCaches (onGlobal address argument)) ∧
        warpAccess instruction.latencyOf onShared onGlobal lanes memory =
          .ok (values, timing) after := by
  cases instruction with
  | load =>
      obtain ⟨⟨values, _⟩, _, loaded, returned⟩ := state_bind_ok.mp ran
      obtain ⟨rfl, rfl⟩ := state_pure_ok.mp returned
      refine
        ⟨_, _, _, _, _, values, ?_, ?_,
          fun address _ => globalLoad_keeps address, loaded⟩
      · rw [List.map_map, Function.comp_def, List.map_id']
      · intro lane member
        obtain ⟨_, isAddress, rfl⟩ := List.mem_map.mp member
        obtain ⟨access, isAccess, rfl⟩ := List.mem_map.mp isAddress
        exact isGlobal access isAccess
  | store =>
      obtain ⟨⟨values, _⟩, _, stored, returned⟩ := state_bind_ok.mp ran
      obtain ⟨rfl, rfl⟩ := state_pure_ok.mp returned
      exact
        ⟨_, _, _, _, _, values, rfl, isGlobal, globalStore_keeps, stored⟩
  | atomicAdd =>
      obtain ⟨⟨values, _⟩, _, added, returned⟩ := state_bind_ok.mp ran
      obtain ⟨rfl, rfl⟩ := state_pure_ok.mp returned
      refine ⟨_, _, _, _, _, values, rfl, isGlobal, ?_, added⟩
      exact fun address _ =>
        .bind (globalLoad_keeps address) fun _ => globalStore_keeps address _

end WarpInstruction

/--
A warp access to global memory makes the least number of transactions that cover
its lanes.  Any access that touches the same lines, with other lanes in another
order, takes as long and leaves the same caches; stores and atomic additions are
alike in this.
-/
theorem cost_of_lines
    {memory after : MemorySystem}
    {instruction : WarpInstruction}
    {accesses : List (Nat × Word)}
    {timing : WarpMemoryResult}
    (positive : 0 < memory.l1Cache.lineSize)
    (isGlobal : ∀ access ∈ accesses, isShared access.1 = false)
    (ran : instruction.perform accesses memory = .ok timing after) :
    IsLeast {count | ∃ bases,
        Covers memory.l1Cache.lineSize (accesses.map Prod.fst) bases ∧
        bases.length = count}
        timing.numTransactions ∧
      ∀ (other : WarpInstruction) (others : List (Nat × Word))
        (otherTiming : WarpMemoryResult) (otherAfter : MemorySystem),
        other.isWrite = instruction.isWrite →
        (∀ access ∈ others, isShared access.1 = false) →
        linesOf memory.l1Cache.lineSize (others.map Prod.fst) =
          linesOf memory.l1Cache.lineSize (accesses.map Prod.fst) →
        other.perform others memory = .ok otherTiming otherAfter →
        otherTiming = timing ∧
          otherAfter.l1Cache = after.l1Cache ∧
          otherAfter.l2Cache = after.l2Cache := by
  obtain ⟨_, _, _, _, lanes, _, sameLanes, lanesGlobal, keeps, accessed⟩ :=
    WarpInstruction.perform_access isGlobal ran
  constructor
  · rw [← sameLanes]
    exact warpAccess_least positive lanesGlobal accessed
  · intro other others otherTiming otherAfter sameKind otherIsGlobal sameLines
      otherRan
    obtain ⟨_, _, _, _, otherLanes, _, sameOtherLanes, otherLanesGlobal,
      otherKeeps, otherAccessed⟩ :=
      WarpInstruction.perform_access otherIsGlobal otherRan
    have sameLatency : other.latencyOf = instruction.latencyOf := by
      rw [WarpInstruction.latencyOf, sameKind]
      rfl
    rw [sameLatency] at otherAccessed
    rw [← sameLanes, ← sameOtherLanes] at sameLines
    exact
      warpAccess_alike otherKeeps keeps positive otherLanesGlobal lanesGlobal
        sameLines otherAccessed accessed

/-- Two lanes of one line, and one lane of it, cost alike. -/
theorem cost_of_lines_minimal :
    ∃ timing after otherTiming otherAfter,
      WarpInstruction.store.perform [(0, 5), (0, 6)] (minimal 1) =
          .ok timing after ∧
        WarpInstruction.atomicAdd.perform [(0, 1)] (minimal 1) =
          .ok otherTiming otherAfter ∧
        otherTiming = timing ∧
        otherAfter.l1Cache = after.l1Cache := by
  refine ⟨_, _, _, _, rfl, rfl, ?_⟩
  obtain ⟨_, alike⟩ :=
    @cost_of_lines (minimal 1) _ .store [(0, 5), (0, 6)] _ Nat.one_pos
      (by decide) rfl
  obtain ⟨timing, l1Cache, _⟩ :=
    alike .atomicAdd [(0, 1)] _ _ rfl (by decide) (by decide) rfl
  exact ⟨timing, l1Cache⟩

end MemorySystem

end SimSm
