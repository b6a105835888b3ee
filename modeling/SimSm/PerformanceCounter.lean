import SimSm.Instruction

namespace SimSm

/-!
# Performance counters

The counters of one streaming multiprocessor.  The hooks of the trace logger
write text only and are left out.
-/

/-- Why a cycle was lost. -/
inductive StallReason where
  | none
  | noReadyWarp
  | syntheticLatency
  | writeConflict
  deriving Repr, DecidableEq

/-- The counters; a missing key of `stallReasons` reads as zero. -/
structure PerformanceCounter where
  cycles : Nat := 0
  instructionsRetired : Nat := 0
  stallCycles : Nat := 0
  stallReasons : StallReason → Nat := fun _ => 0
  memoryInstructions : Nat := 0
  memoryTransactions : Nat := 0
  warpBarrierStallCycles : Nat := 0
  bankConflictStalls : Nat := 0
  dirtyEvictionWritebacks : Nat := 0
  totalWarpWaitCycles : Nat := 0
  maxWarpWaitCycles : Nat := 0
  warpWaitEvents : Nat := 0
  starvationEvents : Nat := 0
  warpIssueCounts : List (Nat × Nat) := []

namespace PerformanceCounter

/-- Count one cycle. -/
def incrementCycles (counters : PerformanceCounter) : PerformanceCounter :=
  { counters with cycles := counters.cycles + 1 }

/-- Count one retired instruction. -/
def incrementInstructionsRetired
    (counters : PerformanceCounter) :
    PerformanceCounter :=
  { counters with instructionsRetired := counters.instructionsRetired + 1 }

/-- Count one stall cycle under its reason. -/
def addStall
    (counters : PerformanceCounter)
    (reason : StallReason) :
    PerformanceCounter :=
  { counters with
    stallCycles := counters.stallCycles + 1
    stallReasons := fun query =>
      if query = reason then
        counters.stallReasons query + 1
      else
        counters.stallReasons query }

/-- Count one memory instruction. -/
def incrementMemoryInstructions
    (counters : PerformanceCounter) :
    PerformanceCounter :=
  { counters with memoryInstructions := counters.memoryInstructions + 1 }

/-- Count memory transactions. -/
def addMemoryTransactions
    (counters : PerformanceCounter)
    (transactions : Nat) :
    PerformanceCounter :=
  { counters with
    memoryTransactions := counters.memoryTransactions + transactions }

/-- Count warps stalled at a barrier in this cycle. -/
def addWarpBarrierStallCycles
    (counters : PerformanceCounter)
    (count : Nat) :
    PerformanceCounter :=
  { counters with
    warpBarrierStallCycles := counters.warpBarrierStallCycles + count }

/-- Count bank-conflict cycles. -/
def addBankConflictStalls
    (counters : PerformanceCounter)
    (count : Nat) :
    PerformanceCounter :=
  { counters with bankConflictStalls := counters.bankConflictStalls + count }

/-- Count dirty evictions. -/
def addDirtyEvictionWritebacks
    (counters : PerformanceCounter)
    (count : Nat) :
    PerformanceCounter :=
  { counters with
    dirtyEvictionWritebacks := counters.dirtyEvictionWritebacks + count }

/-- Record the wait of an issued warp. -/
def recordWarpWait
    (counters : PerformanceCounter)
    (waitCycles : Nat) :
    PerformanceCounter :=
  { counters with
    totalWarpWaitCycles := counters.totalWarpWaitCycles + waitCycles
    maxWarpWaitCycles := max counters.maxWarpWaitCycles waitCycles
    warpWaitEvents :=
      if 0 < waitCycles then
        counters.warpWaitEvents + 1
      else
        counters.warpWaitEvents }

/-- Record one starvation event. -/
def recordStarvationEvent
    (counters : PerformanceCounter) :
    PerformanceCounter :=
  { counters with starvationEvents := counters.starvationEvents + 1 }

/-- Update the value at a key of an ordered map, inserting it when missing. -/
def upsert (key : Nat) (update : Nat → Nat) :
    List (Nat × Nat) → List (Nat × Nat)
  | [] => [(key, update 0)]
  | (first, value) :: rest =>
      if key < first then
        (key, update 0) :: (first, value) :: rest
      else if key = first then
        (first, update value) :: rest
      else
        (first, value) :: upsert key update rest

/-- Give a warp id an issue count of zero, unless it has one. -/
def initializeWarpIssueCount
    (counters : PerformanceCounter)
    (warpId : Nat) :
    PerformanceCounter :=
  { counters with
    warpIssueCounts := upsert warpId id counters.warpIssueCounts }

/-- Count one issue of a warp id. -/
def recordWarpIssue
    (counters : PerformanceCounter)
    (warpId : Nat) :
    PerformanceCounter :=
  { counters with
    warpIssueCounts := upsert warpId (· + 1) counters.warpIssueCounts }

/-! ## The issue counts as an ordered map -/

/-- The keys of an ordered map increase. -/
def Ordered (counts : List (Nat × Nat)) : Prop :=
  (counts.map Prod.fst).Pairwise (· < ·)

/-- An update adds at most its key. -/
theorem mem_keys_upsert
    {key query : Nat}
    {update : Nat → Nat}
    {counts : List (Nat × Nat)} :
    query ∈ (upsert key update counts).map Prod.fst ↔
      query = key ∨ query ∈ counts.map Prod.fst := by
  induction counts with
  | nil => simp [upsert]
  | cons head rest inductionHypothesis =>
      rcases head with ⟨first, value⟩
      rw [upsert]
      split
      · simp
      · split
        · rename_i same
          simp [same]
        · rw [List.map_cons, List.mem_cons, inductionHypothesis,
            List.map_cons, List.mem_cons]
          exact or_left_comm

/-- Updates keep a map ordered. -/
theorem Ordered.upsert
    {counts : List (Nat × Nat)}
    (ordered : Ordered counts)
    (key : Nat)
    (update : Nat → Nat) :
    Ordered (upsert key update counts) := by
  induction counts with
  | nil => exact List.pairwise_singleton _ _
  | cons head rest inductionHypothesis =>
      rcases head with ⟨first, value⟩
      obtain ⟨above, restOrdered⟩ := List.pairwise_cons.mp ordered
      rw [PerformanceCounter.upsert]
      split
      · rename_i below
        refine List.pairwise_cons.mpr ⟨?_, ordered⟩
        intro other member
        rcases List.mem_cons.mp member with rfl | inRest
        · exact below
        · exact below.trans (above other inRest)
      · split
        · exact ordered
        · rename_i notBelow notSame
          refine
            List.pairwise_cons.mpr ⟨?_, inductionHypothesis restOrdered⟩
          intro other member
          rcases mem_keys_upsert.mp member with rfl | inRest
          · exact
              lt_of_le_of_ne (Nat.not_lt.mp notBelow) (Ne.symm notSame)
          · exact above other inRest

/-- A key below all keys of a map is not in it. -/
theorem lookup_eq_none
    {key : Nat}
    {counts : List (Nat × Nat)}
    (missing : key ∉ counts.map Prod.fst) :
    counts.lookup key = none := by
  rw [List.lookup_eq_none_iff]
  intro entry member
  rw [bne_iff_ne]
  rintro rfl
  exact missing (List.mem_map_of_mem member)

/-- An update changes the value at its key. -/
theorem lookup_upsert_self
    {key : Nat}
    {update : Nat → Nat}
    {counts : List (Nat × Nat)}
    (ordered : Ordered counts) :
    (upsert key update counts).lookup key =
      some (update ((counts.lookup key).getD 0)) := by
  induction counts with
  | nil => simp [upsert]
  | cons head rest inductionHypothesis =>
      rcases head with ⟨first, value⟩
      obtain ⟨above, restOrdered⟩ := List.pairwise_cons.mp ordered
      rw [upsert]
      split
      · rename_i below
        have missing : key ∉ ((first, value) :: rest).map Prod.fst := by
          rw [List.map_cons, List.mem_cons, not_or]
          exact
            ⟨below.ne, fun member => below.not_gt (above key member)⟩
        rw [lookup_eq_none missing]
        simp
      · split
        · rename_i same
          simp [same]
        · rename_i notSame
          rw [List.lookup_cons, List.lookup_cons,
            beq_eq_false_iff_ne.mpr notSame]
          exact inductionHypothesis restOrdered

/-- An update keeps the values at the other keys. -/
theorem lookup_upsert_ne
    {key query : Nat}
    {update : Nat → Nat}
    {counts : List (Nat × Nat)}
    (other : query ≠ key) :
    (upsert key update counts).lookup query = counts.lookup query := by
  induction counts with
  | nil => simp [upsert, other]
  | cons head rest inductionHypothesis =>
      rcases head with ⟨first, value⟩
      rw [upsert]
      split
      · rw [List.lookup_cons, beq_eq_false_iff_ne.mpr other]
      · split
        · rename_i same
          rw [List.lookup_cons, List.lookup_cons, ← same,
            beq_eq_false_iff_ne.mpr other]
        · rw [List.lookup_cons, List.lookup_cons, inductionHypothesis]

/-- Counting one issue adds one to the sum of all counts. -/
theorem sum_upsert_succ
    (key : Nat)
    (counts : List (Nat × Nat)) :
    ((upsert key (· + 1) counts).map Prod.snd).sum =
      (counts.map Prod.snd).sum + 1 := by
  induction counts with
  | nil => rfl
  | cons head rest inductionHypothesis =>
      rcases head with ⟨first, value⟩
      rw [upsert]
      split
      · simp [Nat.add_comm]
      · split
        · simp [Nat.add_right_comm]
        · simp [inductionHypothesis, Nat.add_assoc]

/-- A new entry counts nothing. -/
theorem sum_upsert_id
    (key : Nat)
    (counts : List (Nat × Nat)) :
    ((upsert key id counts).map Prod.snd).sum =
      (counts.map Prod.snd).sum := by
  induction counts with
  | nil => rfl
  | cons head rest inductionHypothesis =>
      rcases head with ⟨first, value⟩
      rw [upsert]
      split
      · simp
      · split
        · simp
        · simp [inductionHypothesis]

end PerformanceCounter

end SimSm
