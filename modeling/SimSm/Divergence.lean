import Mathlib.Algebra.Order.BigOperators.Group.List
import SimSm.Reconvergence
import SimSm.SingleWarp

namespace SimSm

/-!
# Divergence without reconvergence

Kernels of arithmetic and branches only.  A divergent branch defers the lanes
that fall through, and nothing but the end of the kernel resumes them.  Each
lane of the warp follows its own scalar run, and every lane finishes it exactly
when no path is deferred past the end of the kernel on top of one inside it.
-/

/-- Arithmetic with valid operands, or a branch. -/
def Instruction.Scalar (inst : Instruction) : Prop :=
  inst.Arithmetic ∨ inst.opcode = .branch

instance (inst : Instruction) : Decidable inst.Scalar :=
  inferInstanceAs (Decidable (_ ∨ _))

/-- Every instruction of the kernel is scalar. -/
def Kernel.Scalar (kernel : Kernel) : Prop :=
  ∀ inst ∈ kernel.instructions, inst.Scalar

instance (kernel : Kernel) : Decidable kernel.Scalar :=
  inferInstanceAs (Decidable (∀ inst ∈ kernel.instructions, inst.Scalar))

theorem Instruction.Scalar.regular
    {inst : Instruction}
    (scalar : inst.Scalar) :
    inst.Regular :=
  scalar.imp_right fun opcode => by simp [opcode, Opcode.isControl]

theorem Kernel.Scalar.regular
    {kernel : Kernel}
    (scalar : kernel.Scalar) :
    kernel.Regular :=
  fun inst member => (scalar inst member).regular

namespace Divergence

/-- The pc of a lane after an instruction. -/
def lanePc (inst : Instruction) (lane : LaneState) (pc : Nat) : Nat :=
  if inst.opcode = .branch ∧ lane.predicate = true then
    branchPc pc inst.immediate
  else
    nextPc pc

/--
The scalar run of one lane from a pc: the pcs of the instructions it executes
until it leaves the kernel, and its final state.
-/
inductive ScalarRun (kernel : Kernel) :
    LaneState → Nat → List Nat → LaneState → Prop where
  | done
      {lane : LaneState}
      {pc : Nat}
      (outside : kernel.size ≤ pc) :
      ScalarRun kernel lane pc [] lane
  | step
      {lane final : LaneState}
      {pc : Nat}
      {rest : List Nat}
      {inst : Instruction}
      (fetched : kernel.fetch? pc = some inst)
      (later :
        ScalarRun kernel (lane.execute inst) (lanePc inst lane pc)
          rest final) :
      ScalarRun kernel lane pc (pc :: rest) final

namespace ScalarRun

/-- Inside the kernel, a run executes the instruction there. -/
theorem inside
    {kernel : Kernel}
    {lane final : LaneState}
    {pc : Nat}
    {pcs : List Nat}
    {inst : Instruction}
    (run : ScalarRun kernel lane pc pcs final)
    (fetched : kernel.fetch? pc = some inst) :
    ∃ rest,
      pcs = pc :: rest ∧
        ScalarRun kernel (lane.execute inst) (lanePc inst lane pc)
          rest final := by
  cases run with
  | done outside =>
      exact (Nat.not_le.mpr (Kernel.fetch?_lt fetched) outside).elim
  | step fetchedAgain later =>
      rw [fetched] at fetchedAgain
      cases fetchedAgain
      exact ⟨_, rfl, later⟩

/-- Past the end of the kernel, a run is over. -/
theorem outside
    {kernel : Kernel}
    {lane final : LaneState}
    {pc : Nat}
    {pcs : List Nat}
    (run : ScalarRun kernel lane pc pcs final)
    (past : kernel.size ≤ pc) :
    pcs = [] ∧ lane = final := by
  cases run with
  | done _ => exact ⟨rfl, rfl⟩
  | step fetched _ =>
      exact (Nat.not_le.mpr (Kernel.fetch?_lt fetched) past).elim

end ScalarRun

/-- The outcome of a lane: its final state and the pcs it executed. -/
structure LaneOutcome where
  final : LaneState
  executed : List Nat
  deriving DecidableEq

/-- Lanes are spread over paths, and each has the rest of its scalar run ahead. -/
structure Follows
    (kernel : Kernel)
    (outcomes : List LaneOutcome)
    (lanes : List LaneState)
    (paths : List Path)
    (rest : Nat → List Nat) : Prop where
  length : lanes.length = outcomes.length
  inRange :
    ∀ path ∈ paths, ∀ {lane : Nat},
      path.mask.getLsbD lane = true → lane < lanes.length
  occupied :
    ∀ path ∈ paths, ∃ lane, path.mask.getLsbD lane = true
  disjoint :
    paths.Pairwise fun above below =>
      ∀ {lane : Nat},
        above.mask.getLsbD lane = true →
        below.mask.getLsbD lane = false
  waiting :
    ∀ {lane : Nat} {state : LaneState} {outcome : LaneOutcome},
      lanes[lane]? = some state →
      outcomes[lane]? = some outcome →
      ∀ path ∈ paths,
        path.mask.getLsbD lane = true →
        ScalarRun kernel state path.pc (rest lane) outcome.final
  finished :
    ∀ {lane : Nat} {state : LaneState} {outcome : LaneOutcome},
      lanes[lane]? = some state →
      outcomes[lane]? = some outcome →
      (∀ path ∈ paths, path.mask.getLsbD lane = false) →
      rest lane = [] ∧ state = outcome.final

/-- The paths into which the current path continues after an instruction. -/
structure Continues
    (inst : Instruction)
    (lanes : List LaneState)
    (current : Path)
    (next : List Path) : Prop where
  within :
    ∀ path ∈ next, ∀ {lane : Nat},
      path.mask.getLsbD lane = true → current.mask.getLsbD lane = true
  covers :
    ∀ {lane : Nat},
      current.mask.getLsbD lane = true →
      ∃ path ∈ next, path.mask.getLsbD lane = true
  occupied :
    ∀ path ∈ next, ∃ lane, path.mask.getLsbD lane = true
  disjoint :
    next.Pairwise fun above below =>
      ∀ {lane : Nat},
        above.mask.getLsbD lane = true →
        below.mask.getLsbD lane = false
  pcs :
    ∀ path ∈ next, ∀ {lane : Nat} {state : LaneState},
      path.mask.getLsbD lane = true →
      lanes[lane]? = some state →
      path.pc = lanePc inst state current.pc

/-- One instruction of the current path moves exactly its lanes ahead. -/
theorem Follows.continue
    {kernel : Kernel}
    {outcomes : List LaneOutcome}
    {lanes : List LaneState}
    {current : Path}
    {pending next : List Path}
    {rest : Nat → List Nat}
    {inst : Instruction}
    (follows : Follows kernel outcomes lanes (current :: pending) rest)
    (fetched : kernel.fetch? current.pc = some inst)
    (continues : Continues inst lanes current next) :
    Follows kernel outcomes
      (onMask current.mask (LaneState.execute inst) lanes)
      (next ++ pending)
      (fun lane =>
        if current.mask.getLsbD lane then (rest lane).tail else rest lane) := by
  obtain ⟨currentApart, pendingApart⟩ := List.pairwise_cons.mp follows.disjoint
  refine ⟨?_, ?_, ?_, ?_, ?_, ?_⟩
  · rw [length_onMask]
    exact follows.length
  · intro path member lane active
    rw [length_onMask]
    rcases List.mem_append.mp member with inNext | inPending
    · exact follows.inRange current (by simp)
        (continues.within path inNext active)
    · exact follows.inRange path (by simp [inPending]) active
  · intro path member
    rcases List.mem_append.mp member with inNext | inPending
    · exact continues.occupied path inNext
    · exact follows.occupied path (by simp [inPending])
  · refine List.pairwise_append.mpr
      ⟨continues.disjoint, pendingApart, ?_⟩
    intro above inNext below inPending lane active
    exact currentApart below inPending (continues.within above inNext active)
  · intro lane state outcome lookup expected path member active
    rw [getElem?_onMask] at lookup
    obtain ⟨before, found, shape⟩ := Option.map_eq_some_iff.mp lookup
    rcases List.mem_append.mp member with inNext | inPending
    · have wasActive := continues.within path inNext active
      have ahead :=
        follows.waiting found expected current (by simp) wasActive
      obtain ⟨later, restShape, run⟩ := ahead.inside fetched
      rw [wasActive, if_pos rfl] at shape
      rw [wasActive, if_pos rfl, restShape, List.tail_cons, ← shape,
        continues.pcs path inNext active found]
      exact run
    · have inactive : current.mask.getLsbD lane = false := by
        by_contra isActive
        rw [Bool.not_eq_false] at isActive
        rw [currentApart path inPending isActive] at active
        cases active
      rw [inactive, if_neg (by simp)] at shape
      rw [inactive, if_neg (by simp), ← shape]
      exact follows.waiting found expected path (by simp [inPending]) active
  · intro lane state outcome lookup expected unmasked
    rw [getElem?_onMask] at lookup
    obtain ⟨before, found, shape⟩ := Option.map_eq_some_iff.mp lookup
    have inactive : current.mask.getLsbD lane = false := by
      by_contra isActive
      rw [Bool.not_eq_false] at isActive
      obtain ⟨path, inNext, active⟩ := continues.covers isActive
      rw [unmasked path (by simp [inNext])] at active
      cases active
    rw [inactive, if_neg (by simp)] at shape
    rw [inactive, if_neg (by simp), ← shape]
    refine follows.finished found expected fun path member => ?_
    rcases List.mem_cons.mp member with rfl | inPending
    · exact inactive
    · exact unmasked path (by simp [inPending])

/-- The next instruction is a branch that some but not all lanes take. -/
def Forks (inst : Instruction) (state : PathState) : Prop :=
  inst.opcode = .branch ∧
    state.taken ≠ 0 ∧ state.taken ≠ state.current.mask

/-- A scalar instruction continues the current path, or forks it. -/
inductive Moved
    (inst : Instruction)
    (state next : PathState) : Prop where
  | uniform
      (together : ¬ Forks inst state)
      (lanes :
        next.lanes =
          onMask state.current.mask (LaneState.execute inst) state.lanes)
      (pending : next.pending = state.pending)
      (continues : Continues inst state.lanes state.current [next.current])
  | forked
      (deferred : ActiveMask)
      (forks : Forks inst state)
      (lanes :
        next.lanes =
          onMask state.current.mask (LaneState.execute inst) state.lanes)
      (pending :
        next.pending =
          ⟨deferred, nextPc state.current.pc⟩ :: state.pending)
      (continues :
        Continues inst state.lanes state.current
          [next.current, ⟨deferred, nextPc state.current.pc⟩])

/-- A path that moves as a whole continues as one path. -/
theorem continues_whole
    {inst : Instruction}
    {lanes : List LaneState}
    {current : Path}
    {pc : Nat}
    (occupied : ∃ lane, current.mask.getLsbD lane = true)
    (pcs :
      ∀ {lane : Nat} {state : LaneState},
        current.mask.getLsbD lane = true →
        lanes[lane]? = some state →
        pc = lanePc inst state current.pc) :
    Continues inst lanes current [⟨current.mask, pc⟩] where
  within := by
    intro path member lane active
    rw [List.mem_singleton.mp member] at active
    exact active
  covers := fun active => ⟨_, List.mem_singleton_self _, active⟩
  occupied := by
    intro path member
    rw [List.mem_singleton.mp member]
    exact occupied
  disjoint := List.pairwise_singleton _ _
  pcs := by
    intro path member lane state active lookup
    rw [List.mem_singleton.mp member] at active ⊢
    exact pcs active lookup

/-- A forked path continues as its taken and its deferred lanes. -/
theorem continues_fork
    {inst : Instruction}
    {state : PathState}
    (opcode : inst.opcode = .branch)
    (some : state.taken ≠ 0)
    (proper : state.taken ≠ state.current.mask) :
    Continues inst state.lanes state.current
      [⟨state.taken, branchPc state.current.pc inst.immediate⟩,
        ⟨state.current.mask &&& ~~~state.taken,
          nextPc state.current.pc⟩] := by
  have isPart
      {lane : Nat}
      (isTaken : state.taken.getLsbD lane = true) :
      state.current.mask.getLsbD lane = true :=
    ((PathState.getLsbD_taken state lane).mp isTaken).2.1
  refine ⟨?_, ?_, ?_, ?_, ?_⟩
  · intro path member lane active
    rcases List.mem_cons.mp member with rfl | member
    · exact isPart active
    · rw [List.mem_singleton.mp member, ActiveMask.getLsbD_diff,
        Bool.and_eq_true] at active
      exact active.1
  · intro lane active
    cases isTaken : state.taken.getLsbD lane with
    | true => exact ⟨_, List.mem_cons_self, isTaken⟩
    | false =>
        refine ⟨_, List.mem_cons_of_mem _ (List.mem_singleton_self _), ?_⟩
        change
          (state.current.mask &&& ~~~state.taken).getLsbD lane = true
        rw [ActiveMask.getLsbD_diff, active, isTaken]
        rfl
  · intro path member
    rcases List.mem_cons.mp member with rfl | member
    · exact ActiveMask.exists_lane some
    · rw [List.mem_singleton.mp member]
      exact ActiveMask.exists_lane (ActiveMask.diff_ne_zero isPart proper)
  · refine List.pairwise_pair.mpr fun isTaken => ?_
    rw [ActiveMask.getLsbD_diff, isTaken]
    simp
  · intro path member lane laneState active lookup
    rcases List.mem_cons.mp member with rfl | member
    · have predicate :=
        PathState.taken_decides lookup (isPart active)
      rw [show state.taken.getLsbD lane = true from active] at predicate
      simp [lanePc, opcode, ← predicate]
    · rw [List.mem_singleton.mp member] at active ⊢
      rw [ActiveMask.getLsbD_diff, Bool.and_eq_true,
        Bool.not_eq_true'] at active
      have predicate := PathState.taken_decides lookup active.1
      rw [active.2] at predicate
      simp [lanePc, ← predicate]

/-- Every scalar instruction executes, and moves the current path. -/
theorem scalar_moves
    {inst : Instruction}
    {state : PathState}
    (scalar : inst.Scalar)
    (occupied : ∃ lane, state.current.mask.getLsbD lane = true) :
    ∃ next, state.execute inst = some next ∧ Moved inst state next := by
  rcases scalar with arithmetic | opcode
  · have notBranch : inst.opcode ≠ .branch := by
      intro opcode
      simp [Instruction.Arithmetic, opcode] at arithmetic
    refine
      ⟨{ state.goto (nextPc state.current.pc) with
          lanes :=
            onMask state.current.mask (LaneState.execute inst)
              state.lanes }, ?_, ?_⟩
    · unfold Instruction.Arithmetic at arithmetic
      cases shape : inst.opcode <;> simp only [shape] at arithmetic <;>
        simp [PathState.execute, shape]
    · refine .uniform (fun forks => notBranch forks.1) rfl rfl ?_
      exact continues_whole occupied fun _ _ => by
        simp [lanePc, notBranch]
  · have lanesKept :
        onMask state.current.mask (LaneState.execute inst) state.lanes =
          state.lanes := by
      have unchanged : LaneState.execute inst = fun lane => lane := by
        funext lane
        simp [LaneState.execute, opcode]
      rw [unchanged, onMask_id]
    refine
      ⟨state.branch (branchPc state.current.pc inst.immediate),
        by simp [PathState.execute, opcode], ?_⟩
    unfold PathState.branch
    by_cases none : state.taken = 0
    · rw [if_pos none]
      refine
        .uniform (fun forks => forks.2.1 none) lanesKept.symm rfl
          (continues_whole occupied ?_)
      intro lane laneState active lookup
      have predicate := PathState.taken_decides lookup active
      rw [ActiveMask.eq_zero_iff.mp none lane] at predicate
      simp [lanePc, ← predicate]
    · rw [if_neg none]
      by_cases all : state.taken = state.current.mask
      · rw [if_pos all]
        refine
          .uniform (fun forks => forks.2.2 all) lanesKept.symm rfl
            (continues_whole occupied ?_)
        intro lane laneState active lookup
        have predicate := PathState.taken_decides lookup active
        rw [all, active] at predicate
        simp [lanePc, opcode, ← predicate]
      · rw [if_neg all]
        exact
          .forked _ ⟨opcode, none, all⟩ lanesKept.symm rfl
            (continues_fork opcode none all)

/-- The current path and the waiting ones, top of stack first. -/
def allPaths (state : PathState) : List Path :=
  state.current :: state.pending

/-- A path that has left the kernel can be dropped. -/
theorem Follows.drop
    {kernel : Kernel}
    {outcomes : List LaneOutcome}
    {lanes : List LaneState}
    {current : Path}
    {pending : List Path}
    {rest : Nat → List Nat}
    (follows : Follows kernel outcomes lanes (current :: pending) rest)
    (outside : kernel.size ≤ current.pc) :
    Follows kernel outcomes lanes pending rest where
  length := follows.length
  inRange := fun path member => follows.inRange path (by simp [member])
  occupied := fun path member => follows.occupied path (by simp [member])
  disjoint := (List.pairwise_cons.mp follows.disjoint).2
  waiting := fun found expected path member =>
    follows.waiting found expected path (by simp [member])
  finished := by
    intro lane state outcome found expected unmasked
    cases active : current.mask.getLsbD lane with
    | true =>
        exact
          (follows.waiting found expected current (by simp) active).outside
            outside
    | false =>
        refine follows.finished found expected fun path member => ?_
        rcases List.mem_cons.mp member with rfl | inPending
        · exact active
        · exact unmasked path inPending

/-- Settling keeps every lane on its scalar run. -/
theorem Follows.settle
    {kernel : Kernel}
    {outcomes : List LaneOutcome}
    {state : PathState}
    {rest : Nat → List Nat}
    (follows :
      Follows kernel outcomes state.lanes (allPaths state) rest) :
    Follows kernel outcomes (state.settle kernel.size).lanes
      (allPaths (state.settle kernel.size)) rest := by
  unfold PathState.settle
  split
  · rename_i outside
    split
    · exact follows
    · rename_i path others pending
      have dropped := follows.drop outside
      rw [pending] at dropped
      exact dropped
  · exact follows

/-- No path outside the kernel lies above one inside it. -/
def Orderly (size : Nat) (paths : List Path) : Prop :=
  paths.Pairwise fun above below => below.pc < size → above.pc < size

/-- A path inside the kernel may lie above any others. -/
theorem orderly_cons_inside
    {size : Nat}
    {current : Path}
    {pending : List Path}
    (inside : current.pc < size) :
    Orderly size (current :: pending) ↔ Orderly size pending := by
  unfold Orderly
  rw [List.pairwise_cons]
  exact and_iff_right fun _ _ _ => inside

/-- Settling leaves the order of the waiting paths to decide. -/
theorem orderly_settle
    (size : Nat)
    (state : PathState) :
    Orderly size (allPaths (state.settle size)) ↔
      Orderly size state.pending := by
  unfold PathState.settle
  split
  · split
    · rename_i pending
      rw [allPaths, pending]
      simp [Orderly]
    · rename_i path others pending
      rw [allPaths, pending]
  · rename_i inside
    exact orderly_cons_inside (Nat.lt_of_not_le inside)

/--
The divergence that loses lanes: the last instruction forks, so that the
deferred path starts past the end, and a path inside the kernel waits below.
-/
def Fatal (kernel : Kernel) (run : PathRun) : Prop :=
  run.completed = false ∧
    ∃ inst,
      kernel.fetch? run.paths.current.pc = some inst ∧
        Forks inst run.paths ∧
        run.paths.current.pc + 1 = kernel.size ∧
        ∃ path ∈ run.paths.pending, path.pc < kernel.size

/-- One instruction keeps the order exactly when it is not fatal. -/
theorem Moved.orderly
    {kernel : Kernel}
    {inst : Instruction}
    {run : PathRun}
    {next : PathState}
    (moved : Moved inst run.paths next)
    (running : run.completed = false)
    (fetched : kernel.fetch? run.paths.current.pc = some inst) :
    Orderly kernel.size (allPaths (next.settle kernel.size)) ↔
      Orderly kernel.size (allPaths run.paths) ∧ ¬ Fatal kernel run := by
  have inside := Kernel.fetch?_lt fetched
  rw [orderly_settle, allPaths, orderly_cons_inside inside]
  cases moved with
  | uniform together lanes pending continues =>
      have notFatal : ¬ Fatal kernel run := by
        rintro ⟨-, other, otherFetched, forks, -⟩
        rw [fetched] at otherFetched
        cases otherFetched
        exact together forks
      rw [pending]
      exact (and_iff_left notFatal).symm
  | forked deferred forks lanes pending continues =>
      rw [pending, Kernel.nextPc_eq inside]
      unfold Orderly
      rw [List.pairwise_cons, and_comm]
      refine and_congr_right fun _ => ?_
      constructor
      · rintro inFront ⟨-, -, -, -, atEnd, path, member, pathInside⟩
        have := inFront path member pathInside
        exact Nat.ne_of_lt this atEnd
      · intro notFatal path member pathInside
        by_contra atEnd
        exact notFatal
          ⟨running, inst, fetched, forks,
            Nat.le_antisymm inside (Nat.not_lt.mp atEnd), path, member,
            pathInside⟩

/-- A run in which every lane has the rest of its scalar run ahead. -/
structure Tracks
    (kernel : Kernel)
    (outcomes : List LaneOutcome)
    (run : PathRun)
    (rest : Nat → List Nat) : Prop where
  follows :
    Follows kernel outcomes run.paths.lanes (allPaths run.paths) rest
  stopped : run.completed = true → kernel.size ≤ run.paths.current.pc

/-- How many instructions the lanes still have to execute. -/
def remaining (outcomes : List LaneOutcome) (rest : Nat → List Nat) : Nat :=
  ((List.range outcomes.length).map fun lane => (rest lane).length).sum

/-- What one cycle of a tracked run does. -/
structure Advances
    (kernel : Kernel)
    (outcomes : List LaneOutcome)
    (run next : PathRun)
    (rest later : Nat → List Nat) : Prop where
  tracks : Tracks kernel outcomes next later
  executed :
    ∀ lane, (run.executedPc? kernel lane).toList ++ later lane = rest lane
  orderly :
    Orderly kernel.size (allPaths next.paths) ↔
      Orderly kernel.size (allPaths run.paths) ∧ ¬ Fatal kernel run
  decreases :
    next.completed = true ∨ remaining outcomes later < remaining outcomes rest

/-- Inside the kernel, an active lane executes the instruction there next. -/
theorem Follows.rest_of_active
    {kernel : Kernel}
    {outcomes : List LaneOutcome}
    {lanes : List LaneState}
    {current : Path}
    {pending : List Path}
    {rest : Nat → List Nat}
    {inst : Instruction}
    {lane : Nat}
    (follows : Follows kernel outcomes lanes (current :: pending) rest)
    (fetched : kernel.fetch? current.pc = some inst)
    (active : current.mask.getLsbD lane = true) :
    ∃ later, rest lane = current.pc :: later := by
  have inside := follows.inRange current List.mem_cons_self active
  have expectedInside : lane < outcomes.length := by
    rw [← follows.length]
    exact inside
  obtain ⟨later, restShape, -⟩ :=
    (follows.waiting (List.getElem?_eq_getElem inside)
      (List.getElem?_eq_getElem expectedInside) current List.mem_cons_self
      active).inside fetched
  exact ⟨later, restShape⟩

/-- Executing one instruction for the current lanes shortens their runs. -/
theorem remaining_lt
    {kernel : Kernel}
    {outcomes : List LaneOutcome}
    {lanes : List LaneState}
    {current : Path}
    {pending : List Path}
    {rest : Nat → List Nat}
    {inst : Instruction}
    (follows : Follows kernel outcomes lanes (current :: pending) rest)
    (fetched : kernel.fetch? current.pc = some inst) :
    remaining outcomes
        (fun lane =>
          if current.mask.getLsbD lane then (rest lane).tail else rest lane) <
      remaining outcomes rest := by
  obtain ⟨lane, active⟩ := follows.occupied current List.mem_cons_self
  have inside := follows.inRange current List.mem_cons_self active
  rw [follows.length] at inside
  obtain ⟨later, restShape⟩ := follows.rest_of_active fetched active
  refine List.sum_lt_sum _ _ ?_ ⟨lane, List.mem_range.mpr inside, ?_⟩
  · intro other _
    dsimp only
    split <;> simp
  · simp [active, restShape]

/-- A moved path keeps every lane on its scalar run. -/
theorem Moved.follows
    {kernel : Kernel}
    {outcomes : List LaneOutcome}
    {inst : Instruction}
    {state next : PathState}
    {rest : Nat → List Nat}
    (moved : Moved inst state next)
    (follows : Follows kernel outcomes state.lanes (allPaths state) rest)
    (fetched : kernel.fetch? state.current.pc = some inst) :
    Follows kernel outcomes next.lanes (allPaths next)
      (fun lane =>
        if state.current.mask.getLsbD lane then
          (rest lane).tail
        else
          rest lane) := by
  cases moved with
  | uniform together lanes pending continues =>
      have moved := follows.continue fetched continues
      rw [lanes, allPaths, pending]
      exact moved
  | forked deferred forks lanes pending continues =>
      have moved := follows.continue fetched continues
      rw [lanes, allPaths, pending]
      exact moved

/-- Settling an ended run leaves its current path outside the kernel. -/
theorem outside_of_ended
    {size : Nat}
    {state : PathState}
    (ended : state.ended size = true) :
    size ≤ (state.settle size).current.pc := by
  simp only [PathState.ended, Bool.and_eq_true, decide_eq_true_eq,
    List.isEmpty_iff] at ended
  simpa [PathState.settle, ended.2] using ended.1

/-- Every cycle of a tracked run advances. -/
theorem Tracks.step
    {kernel : Kernel}
    {outcomes : List LaneOutcome}
    {run : PathRun}
    {rest : Nat → List Nat}
    (tracks : Tracks kernel outcomes run rest)
    (scalar : kernel.Scalar) :
    ∃ next later,
      run.step kernel = some next ∧
        Advances kernel outcomes run next rest later := by
  cases completed : run.completed with
  | true =>
      refine ⟨run, rest, by simp [PathRun.step, completed],
        ⟨tracks, ?_, ?_, Or.inl completed⟩⟩
      · intro lane
        simp [PathRun.executedPc?, completed]
      · refine (and_iff_left ?_).symm
        rintro ⟨running, -⟩
        rw [completed] at running
        cases running
  | false =>
      cases fetched : kernel.fetch? run.paths.current.pc with
      | none =>
          have outside := Kernel.fetch?_eq_none_iff.mp fetched
          refine ⟨{ run with completed := true }, rest,
            by simp [PathRun.step, completed, fetched],
            ⟨⟨tracks.follows, fun _ => outside⟩, ?_, ?_, Or.inl rfl⟩⟩
          · intro lane
            simp [PathRun.executedPc?, Nat.not_lt.mpr outside]
          · refine (and_iff_left ?_).symm
            rintro ⟨-, inst, again, -⟩
            rw [fetched] at again
            cases again
      | some inst =>
          have inside := Kernel.fetch?_lt fetched
          obtain ⟨paths, executed, moved⟩ :=
            scalar_moves (scalar inst (Kernel.fetch?_mem fetched))
              (tracks.follows.occupied _ List.mem_cons_self)
          refine
            ⟨⟨paths.settle kernel.size, paths.ended kernel.size⟩, _,
              by simp [PathRun.step, completed, fetched, executed],
              ⟨⟨(moved.follows tracks.follows fetched).settle, ?_⟩, ?_,
                moved.orderly completed fetched,
                Or.inr (remaining_lt tracks.follows fetched)⟩⟩
          · intro ended
            exact outside_of_ended ended
          · intro lane
            cases active : run.paths.current.mask.getLsbD lane with
            | false => simp [PathRun.executedPc?, active]
            | true =>
                obtain ⟨later, restShape⟩ :=
                  tracks.follows.rest_of_active fetched active
                simp [PathRun.executedPc?, completed, active, inside,
                  restShape]

/-- No state of the next cycles is about to lose lanes. -/
def NeverFatal (kernel : Kernel) (run : PathRun) (cycles : Nat) : Prop :=
  ∀ {earlier : Nat} {state : PathRun},
    earlier < cycles →
    run.steps kernel earlier = some state →
    ¬ Fatal kernel state

/-- The first cycle and the later ones make up all of them. -/
theorem neverFatal_succ
    {kernel : Kernel}
    {run next : PathRun}
    {cycles : Nat}
    (stepped : run.step kernel = some next) :
    NeverFatal kernel run (cycles + 1) ↔
      ¬ Fatal kernel run ∧ NeverFatal kernel next cycles := by
  constructor
  · intro never
    refine ⟨never (Nat.succ_pos cycles) rfl, ?_⟩
    intro earlier state before reached
    refine never (Nat.succ_lt_succ before) ?_
    rw [PathRun.steps, stepped]
    exact reached
  · rintro ⟨notNow, notLater⟩ earlier state before reached
    cases earlier with
    | zero =>
        cases reached
        exact notNow
    | succ earlier =>
        rw [PathRun.steps, stepped] at reached
        exact notLater (Nat.lt_of_succ_lt_succ before) reached

/-- What several cycles of a tracked run do. -/
theorem Tracks.steps
    {kernel : Kernel}
    {outcomes : List LaneOutcome}
    {run : PathRun}
    {rest : Nat → List Nat}
    (tracks : Tracks kernel outcomes run rest)
    (scalar : kernel.Scalar)
    (cycles : Nat) :
    ∃ next later,
      run.steps kernel cycles = some next ∧
        Tracks kernel outcomes next later ∧
        (∀ lane, run.lanePcs kernel lane cycles ++ later lane = rest lane) ∧
        (Orderly kernel.size (allPaths next.paths) ↔
          Orderly kernel.size (allPaths run.paths) ∧
            NeverFatal kernel run cycles) := by
  induction cycles generalizing run rest with
  | zero =>
      refine ⟨run, rest, rfl, tracks, fun lane => rfl, ?_⟩
      refine (and_iff_left ?_).symm
      intro earlier state before
      exact (Nat.not_lt_zero earlier before).elim
  | succ cycles inductionHypothesis =>
      obtain ⟨middle, middleRest, stepped, advances⟩ := tracks.step scalar
      obtain ⟨next, later, reached, nextTracks, executed, orderly⟩ :=
        inductionHypothesis advances.tracks
      refine ⟨next, later, ?_, nextTracks, ?_, ?_⟩
      · rw [PathRun.steps, stepped]
        exact reached
      · intro lane
        rw [← advances.executed lane, ← executed lane]
        simp [PathRun.lanePcs, stepped]
      · rw [orderly, advances.orderly, neverFatal_succ stepped, and_assoc]

/-- Every tracked run completes. -/
theorem Tracks.completes
    {kernel : Kernel}
    {outcomes : List LaneOutcome}
    {run : PathRun}
    {rest : Nat → List Nat}
    (tracks : Tracks kernel outcomes run rest)
    (scalar : kernel.Scalar) :
    ∃ cycles next,
      run.steps kernel cycles = some next ∧ next.completed = true := by
  induction bound : remaining outcomes rest using Nat.strongRecOn
    generalizing run rest with
  | ind bound inductionHypothesis =>
      obtain ⟨next, later, stepped, advances⟩ := tracks.step scalar
      rcases advances.decreases with completed | shorter
      · exact ⟨1, next, by simp [PathRun.steps, stepped], completed⟩
      · obtain ⟨cycles, final, reached, completed⟩ :=
          inductionHypothesis _ (bound ▸ shorter) advances.tracks rfl
        refine ⟨cycles + 1, final, ?_, completed⟩
        rw [PathRun.steps, stepped]
        exact reached

/-- A completed run stays as it is and executes nothing. -/
theorem steps_of_completed
    {kernel : Kernel}
    {run : PathRun}
    (completed : run.completed = true)
    (cycles : Nat) :
    run.steps kernel cycles = some run := by
  induction cycles with
  | zero => rfl
  | succ cycles inductionHypothesis =>
      simp [PathRun.steps, PathRun.step, completed, inductionHypothesis]

/-- A completed run in order has executed every lane to its end. -/
theorem Tracks.done_of_orderly
    {kernel : Kernel}
    {outcomes : List LaneOutcome}
    {run : PathRun}
    {rest : Nat → List Nat}
    (tracks : Tracks kernel outcomes run rest)
    (completed : run.completed = true)
    (orderly : Orderly kernel.size (allPaths run.paths))
    {lane : Nat}
    {state : LaneState}
    {outcome : LaneOutcome}
    (found : run.paths.lanes[lane]? = some state)
    (expected : outcomes[lane]? = some outcome) :
    rest lane = [] ∧ state = outcome.final := by
  have currentOutside := tracks.stopped completed
  by_cases masked :
      ∃ path ∈ allPaths run.paths, path.mask.getLsbD lane = true
  · obtain ⟨path, member, active⟩ := masked
    have outside : kernel.size ≤ path.pc := by
      rcases List.mem_cons.mp member with rfl | inPending
      · exact currentOutside
      · by_contra inside
        have currentInside :=
          (List.pairwise_cons.mp orderly).1 path inPending
            (Nat.lt_of_not_le inside)
        exact Nat.not_lt.mpr currentOutside currentInside
    exact
      (tracks.follows.waiting found expected path member active).outside
        outside
  · refine tracks.follows.finished found expected fun path member => ?_
    rw [← Bool.not_eq_true]
    exact fun active => masked ⟨path, member, active⟩

/-- A completed run that has executed every lane to its end is in order. -/
theorem Tracks.orderly_of_done
    {kernel : Kernel}
    {outcomes : List LaneOutcome}
    {run : PathRun}
    {rest : Nat → List Nat}
    (tracks : Tracks kernel outcomes run rest)
    (done : ∀ lane, lane < outcomes.length → rest lane = []) :
    Orderly kernel.size (allPaths run.paths) := by
  have outside
      {path : Path}
      (member : path ∈ allPaths run.paths) :
      ¬ path.pc < kernel.size := by
    intro inside
    obtain ⟨lane, active⟩ := tracks.follows.occupied path member
    have laneInside := tracks.follows.inRange path member active
    have expectedInside : lane < outcomes.length := by
      rw [← tracks.follows.length]
      exact laneInside
    have ahead :=
      tracks.follows.waiting (List.getElem?_eq_getElem laneInside)
        (List.getElem?_eq_getElem expectedInside) path member active
    obtain ⟨later, restShape, -⟩ :=
      ahead.inside (List.getElem?_eq_getElem inside)
    rw [done lane expectedInside] at restShape
    cases restShape
  refine List.Pairwise.imp_of_mem ?_ (List.pairwise_of_forall fun _ _ => trivial)
  intro above below _ member _ inside
  exact (outside member inside).elim

/-! ## One lane alone -/

/-- A run of a single lane. -/
def soloRun (lane : LaneState) (pc : Nat) (completed : Bool) : PathRun where
  paths := ⟨[lane], ⟨ActiveMask.full 1, pc⟩, []⟩
  completed := completed

/-- The only active lane of a single-lane run is the first. -/
theorem soloRun_active
    (lane : Nat) :
    (ActiveMask.full 1).getLsbD lane = true ↔ lane = 0 := by
  rw [ActiveMask.getLsbD_full_lanes (by decide), Nat.lt_one_iff]

/-- A branch of a single lane never forks. -/
theorem soloRun_not_forks
    {inst : Instruction}
    {lane : LaneState}
    {pc : Nat}
    {completed : Bool} :
    ¬ Forks inst (soloRun lane pc completed).paths := by
  rintro ⟨-, some, proper⟩
  apply proper
  apply ActiveMask.eq_of_lanes
  intro query _
  have isPart
      {other : Nat}
      (isTaken :
        (soloRun lane pc completed).paths.taken.getLsbD other = true) :
      other = 0 :=
    (soloRun_active other).mp
      ((PathState.getLsbD_taken _ other).mp isTaken).2.1
  obtain ⟨first, isTaken⟩ := ActiveMask.exists_lane some
  have isZero := isPart isTaken
  subst isZero
  rw [Bool.eq_iff_iff]
  constructor
  · intro queryTaken
    exact (soloRun_active query).mpr (isPart queryTaken)
  · intro active
    rw [(soloRun_active query).mp active]
    exact isTaken

/-- One cycle of a single lane is one scalar instruction. -/
theorem soloRun_step
    {kernel : Kernel}
    {inst : Instruction}
    {lane : LaneState}
    {pc : Nat}
    (scalar : kernel.Scalar)
    (fetched : kernel.fetch? pc = some inst) :
    (soloRun lane pc false).step kernel =
      some
        (soloRun (lane.execute inst) (lanePc inst lane pc)
          (decide (kernel.size ≤ lanePc inst lane pc))) := by
  have firstActive : (ActiveMask.full 1).getLsbD 0 = true :=
    (soloRun_active 0).mpr rfl
  obtain ⟨next, executed, moved⟩ :=
    @scalar_moves inst (soloRun lane pc false).paths
      (scalar inst (Kernel.fetch?_mem fetched)) ⟨0, firstActive⟩
  cases moved with
  | forked deferred forks =>
      exact (soloRun_not_forks forks).elim
  | uniform together lanes pending continues =>
      have mask : next.current.mask = ActiveMask.full 1 := by
        apply ActiveMask.eq_of_lanes
        intro query _
        rw [Bool.eq_iff_iff]
        constructor
        · exact continues.within _ (List.mem_singleton_self _)
        · intro active
          obtain ⟨path, member, covered⟩ := continues.covers active
          rw [List.mem_singleton.mp member] at covered
          exact covered
      have pcShape : next.current.pc = lanePc inst lane pc :=
        continues.pcs _ (List.mem_singleton_self _)
          (by rw [mask]; exact firstActive) rfl
      have lanesShape : next.lanes = [lane.execute inst] := by
        rw [lanes]
        simp [onMask, soloRun]
      have nextShape :
          next =
            ⟨[lane.execute inst],
              ⟨ActiveMask.full 1, lanePc inst lane pc⟩, []⟩ := by
        rw [← lanesShape, ← mask, ← pcShape]
        cases next
        exact congrArg _ pending
      subst nextShape
      simp only [PathRun.step, soloRun, Bool.false_eq_true, if_false, fetched]
      rw [show
          PathState.execute inst ⟨[lane], ⟨ActiveMask.full 1, pc⟩, []⟩ = _
          from executed]
      simp [PathState.settle, PathState.ended]

/-- A single lane that completes has made its scalar run. -/
theorem soloRun_steps
    {kernel : Kernel}
    {lane : LaneState}
    {pc : Nat}
    {completed : Bool}
    (scalar : kernel.Scalar)
    (stopped : completed = true → kernel.size ≤ pc)
    (cycles : Nat) :
    ∃ final finalPc done,
      (soloRun lane pc completed).steps kernel cycles =
          some (soloRun final finalPc done) ∧
        (done = true →
          ScalarRun kernel lane pc
            ((soloRun lane pc completed).lanePcs kernel 0 cycles) final) := by
  induction cycles generalizing lane pc completed with
  | zero =>
      exact ⟨lane, pc, completed, rfl, fun done => .done (stopped done)⟩
  | succ cycles inductionHypothesis =>
      have onward
          {next : PathRun}
          (stepped : (soloRun lane pc completed).step kernel = some next) :
          (soloRun lane pc completed).steps kernel (cycles + 1) =
              next.steps kernel cycles ∧
            (soloRun lane pc completed).lanePcs kernel 0 (cycles + 1) =
              ((soloRun lane pc completed).executedPc? kernel 0).toList ++
                next.lanePcs kernel 0 cycles := by
        simp [PathRun.steps, PathRun.lanePcs, stepped]
      by_cases outside : kernel.size ≤ pc
      · -- Past the end, whether or not completion has been noticed yet.
        have stepped :
            (soloRun lane pc completed).step kernel =
              some (soloRun lane pc true) := by
          have noFetch := Kernel.fetch?_eq_none_iff.mpr outside
          cases completed <;> simp [PathRun.step, soloRun, noFetch]
        obtain ⟨final, finalPc, done, reached, ends⟩ :=
          @inductionHypothesis lane pc true (fun _ => outside)
        refine ⟨final, finalPc, done, (onward stepped).1.trans reached, ?_⟩
        rw [(onward stepped).2]
        simpa [PathRun.executedPc?, soloRun, Nat.not_lt.mpr outside]
          using ends
      · have inside := Nat.lt_of_not_le outside
        have running : completed = false := by
          rw [← Bool.not_eq_true]
          exact fun isCompleted => outside (stopped isCompleted)
        subst running
        have fetched := List.getElem?_eq_getElem inside
        have stepped := @soloRun_step kernel _ lane pc scalar fetched
        obtain ⟨final, finalPc, done, reached, ends⟩ :=
          @inductionHypothesis _ _ _ of_decide_eq_true
        refine ⟨final, finalPc, done, (onward stepped).1.trans reached, ?_⟩
        intro isDone
        rw [(onward stepped).2]
        have executed :
            (soloRun lane pc false).executedPc? kernel 0 = some pc := by
          simp [PathRun.executedPc?, soloRun, inside]
        rw [executed]
        exact .step fetched (ends isDone)

/-! ## Warps on a multiprocessor -/

/--
The hosted warp completes, and every lane ends in its final state having
executed exactly the expected instructions.
-/
def CompletesWith
    (kernel : Kernel)
    (sm : SM Scheduler)
    (memory : MemorySystem)
    (outcomes : List LaneOutcome) : Prop :=
  ∃ cycles after afterMemory final,
    sm.ticks kernel cycles memory = .ok (after, afterMemory) ∧
      after.Hosts final ∧
      final.state = .completed ∧
      final.lanes = outcomes.map LaneOutcome.final ∧
      ∀ {lane : Nat} {outcome : LaneOutcome},
        outcomes[lane]? = some outcome →
        sm.lanePcs kernel lane cycles memory = outcome.executed

/-- What a lane does when it runs alone, as a one-lane warp. -/
def SoloOutcome
    (kernel : Kernel)
    (lane : LaneState)
    (outcome : LaneOutcome) : Prop :=
  ∃ solo soloSm soloMemory,
    Warp.Fresh solo ∧
      solo.lanes = [lane] ∧
      SM.Hosts soloSm solo ∧
      CompletesWith kernel soloSm soloMemory [outcome]

/--
The warp is about to execute the kernel's last instruction, a branch on which
it diverges, while a path inside the kernel waits on its SIMT stack.
-/
def FatalDivergence (kernel : Kernel) (warp : Warp) : Prop :=
  warp.state = .ready ∧
    Reconvergence.Diverges kernel warp ∧
    warp.warpPc + 1 = kernel.size ∧
    ∃ entry ∈ warp.simtStack, entry.targetPc < kernel.size

/-- A hosted warp is the only one hosted. -/
theorem hosts_unique
    {sm : SM Scheduler}
    {first second : Warp}
    (hostsFirst : sm.Hosts first)
    (hostsSecond : sm.Hosts second) :
    first = second :=
  List.singleton_inj.mp (hostsFirst.warps.symm.trans hostsSecond.warps)

/-- The warp and the path machine agree on a fatal divergence. -/
theorem fatalDivergence_iff
    {kernel : Kernel}
    {sm : SM Scheduler}
    {run : PathRun}
    {warp : Warp}
    (runs : sm.Runs run warp) :
    FatalDivergence kernel warp ↔ Fatal kernel run := by
  have pc : warp.warpPc = run.paths.current.pc :=
    congrArg (fun paths => paths.current.pc) runs.paths
  have mask : warp.activeMask = run.paths.current.mask :=
    congrArg (fun paths => paths.current.mask) runs.paths
  have ready : warp.state = .ready ↔ run.completed = false := by
    rw [runs.state]
    cases run.completed <;> simp
  have waiting :
      (∃ entry ∈ warp.simtStack, entry.targetPc < kernel.size) ↔
        ∃ path ∈ run.paths.pending, path.pc < kernel.size := by
    rw [← runs.paths]
    simp [Warp.paths, SIMTStackEntry.path]
  have taken : InstructionExecutor.TakenLanes warp run.paths.taken := by
    intro lane
    rw [← runs.paths, PathState.getLsbD_taken]
    simp only [Warp.paths, Warp.lanes, List.getElem?_map]
    constructor
    · rintro ⟨-, active, laneState, found, holds⟩
      obtain ⟨thread, threadFound, rfl⟩ := Option.map_eq_some_iff.mp found
      exact ⟨active, thread, threadFound, holds⟩
    · rintro ⟨active, thread, found, holds⟩
      exact
        ⟨BitVec.lt_of_getLsbD active, active, thread.lane,
          by simp [found], holds⟩
  constructor
  · rintro ⟨isReady, ⟨inst, lanes, fetched, opcode, isTaken, some, proper⟩,
      atEnd, below⟩
    have sameTaken : run.paths.taken = lanes := by
      rw [← runs.paths]
      exact PathState.taken_eq isTaken
    rw [pc] at fetched atEnd
    refine ⟨ready.mp isReady, inst, fetched, ⟨opcode, ?_, ?_⟩, atEnd,
      waiting.mp below⟩
    · rw [sameTaken]
      exact some
    · rw [sameTaken, ← mask]
      exact proper
  · rintro ⟨running, inst, fetched, ⟨opcode, some, proper⟩, atEnd, below⟩
    rw [← pc] at fetched atEnd
    rw [← mask] at proper
    exact
      ⟨ready.mpr running, ⟨inst, _, fetched, opcode, taken, some, proper⟩,
        atEnd, waiting.mpr below⟩

/-- A lane that completes alone has made its scalar run. -/
theorem SoloOutcome.scalarRun
    {kernel : Kernel}
    {lane : LaneState}
    {outcome : LaneOutcome}
    (solo : SoloOutcome kernel lane outcome)
    (scalar : kernel.Scalar) :
    ScalarRun kernel lane 0 outcome.executed outcome.final := by
  obtain ⟨warp, sm, memory, fresh, lanes, hosts, cycles, after, afterMemory,
    final, ticked, afterHosts, completed, finalLanes, executed⟩ := solo
  have start :
      (⟨Warp.Fresh.start warp.lanes, false⟩ : PathRun) =
        soloRun lane 0 false := by
    rw [lanes]
    rfl
  obtain ⟨finalLane, finalPc, done, reached, ends⟩ :=
    @soloRun_steps kernel lane 0 false scalar (by simp) cycles
  have runs := fresh.runs hosts
  rw [start] at runs
  obtain ⟨sameAfter, sameFinal, sameTicked, finalRuns⟩ :=
    runs.ticks scalar.regular reached memory
  rw [ticked] at sameTicked
  cases sameTicked
  have sameWarp := hosts_unique afterHosts finalRuns.hosts
  subst sameWarp
  have isDone : done = true := by
    have state := finalRuns.state
    rw [completed] at state
    cases done with
    | true => rfl
    | false => cases state
  have sameLanes : final.lanes = [finalLane] :=
    congrArg PathState.lanes finalRuns.paths
  rw [finalLanes] at sameLanes
  have sameFinal : outcome.final = finalLane := List.singleton_inj.mp sameLanes
  rw [← executed (show [outcome][0]? = some outcome from rfl),
    runs.lanePcs scalar.regular reached 0 memory, sameFinal]
  exact ends isDone

/-- A fresh warp tracks the scalar runs of its lanes. -/
theorem tracks_start
    {kernel : Kernel}
    {outcomes : List LaneOutcome}
    {warp : Warp}
    (fresh : warp.Fresh)
    (alone :
      List.Forall₂
        (fun lane (outcome : LaneOutcome) =>
          ScalarRun kernel lane 0 outcome.executed outcome.final)
        warp.lanes outcomes) :
    Tracks kernel outcomes ⟨Warp.Fresh.start warp.lanes, false⟩
      (fun lane => (outcomes[lane]?.map LaneOutcome.executed).getD []) := by
  have lanesBound : warp.lanes.length ≤ 32 := by
    simpa [Warp.lanes] using fresh.lanes
  have lanesPositive : 1 ≤ warp.lanes.length := by
    simpa [Warp.lanes] using fresh.nonempty
  have active := ActiveMask.getLsbD_full_lanes lanesBound
  refine ⟨⟨alone.length_eq, ?_, ?_, List.pairwise_singleton _ _, ?_, ?_⟩, ?_⟩
  · intro path member lane isActive
    rw [List.mem_singleton.mp member] at isActive
    exact (active lane).mp isActive
  · intro path member
    rw [List.mem_singleton.mp member]
    exact ⟨0, (active 0).mpr lanesPositive⟩
  · intro lane state outcome found expected path member isActive
    rw [List.mem_singleton.mp member]
    have lookup : warp.lanes[lane]? = some state := found
    obtain ⟨inside, stateShape⟩ := List.getElem?_eq_some_iff.mp lookup
    obtain ⟨expectedInside, outcomeShape⟩ :=
      List.getElem?_eq_some_iff.mp expected
    have run := (List.forall₂_iff_get.mp alone).2 lane inside expectedInside
    simp only [List.get_eq_getElem] at run
    rw [stateShape, outcomeShape] at run
    simpa [expected, Warp.Fresh.start] using run
  · intro lane state outcome found expected unmasked
    have inside := (List.getElem?_eq_some_iff.mp found).1
    have isActive := (active lane).mpr inside
    have inactive :
        (ActiveMask.full warp.lanes.length).getLsbD lane = false :=
      unmasked _ (List.mem_singleton_self _)
    rw [inactive] at isActive
    cases isActive
  · intro completed
    cases completed

/-- Cycles can be taken one stretch after the other. -/
theorem steps_add
    {kernel : Kernel}
    {run middle : PathRun}
    {first : Nat}
    (reached : run.steps kernel first = some middle)
    (second : Nat) :
    run.steps kernel (first + second) = middle.steps kernel second := by
  induction first generalizing run with
  | zero =>
      cases reached
      rw [Nat.zero_add]
  | succ first inductionHypothesis =>
      obtain ⟨next, stepped, rest⟩ := Option.bind_eq_some_iff.mp reached
      rw [Nat.succ_add, PathRun.steps, stepped]
      exact inductionHypothesis rest

/-- What several ticks of a tracked, hosted run do. -/
structure Observed
    (kernel : Kernel)
    (outcomes : List LaneOutcome)
    (sm : SM Scheduler)
    (memory : MemorySystem)
    (run : PathRun)
    (rest : Nat → List Nat)
    (cycles : Nat)
    (next : PathRun)
    (later : Nat → List Nat)
    (after : SM Scheduler)
    (final : Warp) : Prop where
  reached : run.steps kernel cycles = some next
  tracks : Tracks kernel outcomes next later
  executed :
    ∀ lane, sm.lanePcs kernel lane cycles memory ++ later lane = rest lane
  orderly :
    Orderly kernel.size (allPaths next.paths) ↔
      Orderly kernel.size (allPaths run.paths) ∧ NeverFatal kernel run cycles
  ticked : sm.ticks kernel cycles memory = .ok (after, memory)
  runs : after.Runs next final

/-- Ticks of a tracked run never fail. -/
theorem Tracks.observed
    {kernel : Kernel}
    {outcomes : List LaneOutcome}
    {sm : SM Scheduler}
    {run : PathRun}
    {warp : Warp}
    {rest : Nat → List Nat}
    (tracks : Tracks kernel outcomes run rest)
    (runs : sm.Runs run warp)
    (scalar : kernel.Scalar)
    (memory : MemorySystem)
    (cycles : Nat) :
    ∃ next later after final,
      Observed kernel outcomes sm memory run rest cycles
        next later after final := by
  obtain ⟨next, later, reached, nextTracks, executed, orderly⟩ :=
    tracks.steps scalar cycles
  obtain ⟨after, final, ticked, afterRuns⟩ :=
    runs.ticks scalar.regular reached memory
  refine
    ⟨next, later, after, final, reached, nextTracks, ?_, orderly, ticked,
      afterRuns⟩
  intro lane
  rw [runs.lanePcs scalar.regular reached lane memory]
  exact executed lane

/-- A hosted warp that is completed belongs to a completed run. -/
theorem completed_of_runs
    {sm : SM Scheduler}
    {run : PathRun}
    {warp : Warp}
    (runs : sm.Runs run warp) :
    warp.state = .completed ↔ run.completed = true := by
  rw [runs.state]
  cases run.completed <;> simp

/-- A warp that completes with all solo outcomes met no fatal divergence. -/
theorem not_fatal_of_completesWith
    {kernel : Kernel}
    {outcomes : List LaneOutcome}
    {sm : SM Scheduler}
    {run : PathRun}
    {warp : Warp}
    {memory : MemorySystem}
    (tracks :
      Tracks kernel outcomes run
        (fun lane => (outcomes[lane]?.map LaneOutcome.executed).getD []))
    (runs : sm.Runs run warp)
    (scalar : kernel.Scalar)
    (completes : CompletesWith kernel sm memory outcomes)
    {cycles : Nat}
    {after : SM Scheduler}
    {afterMemory : MemorySystem}
    {current : Warp}
    (ticked : sm.ticks kernel cycles memory = .ok (after, afterMemory))
    (hosts : after.Hosts current) :
    ¬ FatalDivergence kernel current := by
  obtain ⟨last, lastAfter, lastMemory, final, lastTicked, lastHosts,
    completed, -, executed⟩ := completes
  obtain ⟨next, later, nextAfter, nextFinal, observed⟩ :=
    tracks.observed runs scalar memory last
  have sameAfter := lastTicked.symm.trans observed.ticked
  cases sameAfter
  have sameFinal := hosts_unique lastHosts observed.runs.hosts
  subst sameFinal
  have nextCompleted := (completed_of_runs observed.runs).mp completed
  -- The warp has executed all of every lane's scalar run.
  have done : ∀ lane, lane < outcomes.length → later lane = [] := by
    intro lane inside
    have expected := List.getElem?_eq_getElem inside
    have all := observed.executed lane
    rw [executed expected] at all
    simpa [expected] using all
  have never : NeverFatal kernel run last :=
    (observed.orderly.mp (observed.tracks.orderly_of_done done)).2
  obtain ⟨state, _, stateAfter, stateWarp, stateObserved⟩ :=
    tracks.observed runs scalar memory cycles
  have sameTicked := ticked.symm.trans stateObserved.ticked
  cases sameTicked
  have sameCurrent := hosts_unique hosts stateObserved.runs.hosts
  subst sameCurrent
  rw [fatalDivergence_iff stateObserved.runs]
  by_cases before : cycles < last
  · exact never before stateObserved.reached
  · -- From the completion on, nothing changes.
    have stays := steps_add observed.reached (cycles - last)
    rw [Nat.add_sub_cancel' (Nat.not_lt.mp before),
      steps_of_completed nextCompleted, stateObserved.reached] at stays
    cases stays
    rintro ⟨running, -⟩
    rw [nextCompleted] at running
    cases running

/-- A warp that meets no fatal divergence completes with all solo outcomes. -/
theorem completesWith_of_not_fatal
    {kernel : Kernel}
    {outcomes : List LaneOutcome}
    {sm : SM Scheduler}
    {run : PathRun}
    {warp : Warp}
    {memory : MemorySystem}
    (tracks :
      Tracks kernel outcomes run
        (fun lane => (outcomes[lane]?.map LaneOutcome.executed).getD []))
    (orderlyStart : Orderly kernel.size (allPaths run.paths))
    (runs : sm.Runs run warp)
    (scalar : kernel.Scalar)
    (never :
      ∀ (cycles : Nat) (after : SM Scheduler) (afterMemory : MemorySystem)
        (current : Warp),
        sm.ticks kernel cycles memory = .ok (after, afterMemory) →
        after.Hosts current →
        ¬ FatalDivergence kernel current) :
    CompletesWith kernel sm memory outcomes := by
  obtain ⟨cycles, final, reachedFinal, completed⟩ := tracks.completes scalar
  obtain ⟨next, later, after, nextWarp, observed⟩ :=
    tracks.observed runs scalar memory cycles
  have sameNext := reachedFinal.symm.trans observed.reached
  cases sameNext
  have neverFatal : NeverFatal kernel run cycles := by
    intro earlier state _ reached
    obtain ⟨earlierNext, _, earlierAfter, earlierWarp, earlierObserved⟩ :=
      tracks.observed runs scalar memory earlier
    have sameState := reached.symm.trans earlierObserved.reached
    cases sameState
    rw [← fatalDivergence_iff earlierObserved.runs]
    exact
      never earlier earlierAfter memory earlierWarp earlierObserved.ticked
        earlierObserved.runs.hosts
  have orderly := observed.orderly.mpr ⟨orderlyStart, neverFatal⟩
  have doneAt
      {lane : Nat}
      {outcome : LaneOutcome}
      (expected : outcomes[lane]? = some outcome) :
      later lane = [] ∧ final.paths.lanes[lane]? = some outcome.final := by
    have inside := (List.getElem?_eq_some_iff.mp expected).1
    rw [← observed.tracks.follows.length] at inside
    have found := List.getElem?_eq_getElem inside
    obtain ⟨nothingLeft, isFinal⟩ :=
      observed.tracks.done_of_orderly completed orderly found expected
    exact ⟨nothingLeft, by rw [found, isFinal]⟩
  refine
    ⟨cycles, after, memory, nextWarp, observed.ticked, observed.runs.hosts,
      (completed_of_runs observed.runs).mpr completed, ?_, ?_⟩
  · have lanesShape : nextWarp.lanes = final.paths.lanes :=
      congrArg PathState.lanes observed.runs.paths
    rw [lanesShape]
    apply List.ext_getElem?
    intro lane
    rw [List.getElem?_map]
    cases expected : outcomes[lane]? with
    | none =>
        have outside := List.getElem?_eq_none_iff.mp expected
        rw [← observed.tracks.follows.length] at outside
        exact List.getElem?_eq_none_iff.mpr outside
    | some outcome => exact (doneAt expected).2
  · intro lane outcome expected
    have all := observed.executed lane
    rw [(doneAt expected).1] at all
    simpa [expected] using all

/-- The outcome of a lane that completes alone within some cycles. -/
def soloOutcome
    (kernel : Kernel)
    (cycles : Nat)
    (lane : LaneState) :
    LaneOutcome where
  final :=
    (((soloRun lane 0 false).steps kernel cycles).map fun run =>
      run.paths.lanes.headD lane).getD lane
  executed := (soloRun lane 0 false).lanePcs kernel 0 cycles

/-- Whether a lane completes alone within some cycles. -/
def completesAlone
    (kernel : Kernel)
    (cycles : Nat)
    (lane : LaneState) :
    Bool :=
  (((soloRun lane 0 false).steps kernel cycles).map
    PathRun.completed).getD false

/-- Computed solo outcomes are solo outcomes. -/
theorem SoloOutcome.of_completesAlone
    {kernel : Kernel}
    {cycles : Nat}
    {lane : LaneState}
    (scalar : kernel.Scalar)
    (completes : completesAlone kernel cycles lane = true) :
    SoloOutcome kernel lane (soloOutcome kernel cycles lane) := by
  obtain ⟨final, finalPc, done, reached, -⟩ :=
    @soloRun_steps kernel lane 0 false scalar (by simp) cycles
  have isDone : done = true := by
    rw [completesAlone, reached] at completes
    exact completes
  subst isDone
  let thread := (Thread.new 0 0 0 0 0).setLane lane
  have fresh : (Warp.ofThreads 0 [thread]).Fresh :=
    Warp.fresh_ofThreads 0 (by simp) (by simp)
  have lanes : (Warp.ofThreads 0 [thread]).lanes = [lane] := by
    rw [Warp.ofThreads_eq 0 (by simp)]
    rfl
  have hosts :=
    @SM.hosts_hosting (Warp.ofThreads 0 [thread]) .greedy trivial
  have runs := fresh.runs hosts
  rw [lanes] at runs
  obtain ⟨after, finalWarp, ticked, finalRuns⟩ :=
    runs.ticks scalar.regular reached (.minimal 1)
  refine
    ⟨_, _, .minimal 1, fresh, lanes, hosts, cycles, after, .minimal 1,
      finalWarp, ticked, finalRuns.hosts, finalRuns.state, ?_, ?_⟩
  · have finalLanes : finalWarp.lanes = [final] :=
      congrArg PathState.lanes finalRuns.paths
    simp only [finalLanes, soloOutcome, reached]
    rfl
  · intro index outcome found
    cases index with
    | zero =>
        cases found
        exact runs.lanePcs scalar.regular reached 0 (.minimal 1)
    | succ index =>
        cases found

/-- Computed solo outcomes of several lanes. -/
theorem forall₂_soloOutcome
    {kernel : Kernel}
    {cycles : Nat}
    {lanes : List LaneState}
    (scalar : kernel.Scalar)
    (complete : lanes.all (completesAlone kernel cycles) = true) :
    List.Forall₂ (SoloOutcome kernel) lanes
      (lanes.map (soloOutcome kernel cycles)) := by
  rw [List.forall₂_map_right_iff, List.forall₂_same]
  intro lane member
  exact .of_completesAlone scalar (List.all_eq_true.mp complete lane member)

/--
If every lane completes alone, then the warp completes with every lane's solo
outcome exactly when it never reaches a fatal divergence.
-/
theorem warp_completes_iff
    (kernel : Kernel)
    (scalar : kernel.Scalar)
    (warp : Warp)
    (fresh : warp.Fresh)
    (sm : SM Scheduler)
    (hosts : sm.Hosts warp)
    (memory : MemorySystem)
    (outcomes : List LaneOutcome)
    (solo : List.Forall₂ (SoloOutcome kernel) warp.lanes outcomes) :
    CompletesWith kernel sm memory outcomes ↔
      ∀ (cycles : Nat) (after : SM Scheduler) (afterMemory : MemorySystem)
        (current : Warp),
        sm.ticks kernel cycles memory = .ok (after, afterMemory) →
        after.Hosts current →
        ¬ FatalDivergence kernel current := by
  have tracks :=
    @tracks_start kernel outcomes warp fresh
      (solo.imp fun _ _ outcome => outcome.scalarRun scalar)
  have runs := fresh.runs hosts
  constructor
  · intro completes cycles after afterMemory current ticked currentHosts
    exact
      not_fatal_of_completesWith tracks runs scalar completes ticked
        currentHosts
  · intro never
    exact
      completesWith_of_not_fatal tracks (List.pairwise_singleton _ _) runs
        scalar never

/-- Two lanes of which one skips a move: the forward divergence of the tests. -/
def forwardKernel : Kernel where
  instructions :=
    [⟨.mov, 1, -1, 0, 1⟩,
      ⟨.cmp, 0, 0, 1, 0⟩,
      ⟨.branch, 0, 0, 0, 2⟩,
      ⟨.mov, 2, -1, 0, 10⟩,
      ⟨.mov, 3, -1, 0, 0⟩]
  lengthFits := by decide

/-- Lanes with register 0 equal to 1 and to 0. -/
def forwardWarp : Warp :=
  Warp.ofThreads 0 [(Thread.new 0 0 0 0 0).seed 0 1, Thread.new 1 0 1 0 1]

/-- The forward divergence gives both lanes their solo outcomes. -/
theorem warp_completes_iff_forward :
    CompletesWith forwardKernel (.hosting forwardWarp .greedy) (.minimal 1)
      (forwardWarp.lanes.map (soloOutcome forwardKernel 6)) := by
  have scalar : forwardKernel.Scalar := by decide
  refine
    (warp_completes_iff forwardKernel scalar forwardWarp
      (Warp.fresh_ofThreads 0 (by decide) (by decide)) _
      (@SM.hosts_hosting forwardWarp .greedy trivial) (.minimal 1) _
      (forall₂_soloOutcome scalar (by decide +kernel))).mpr ?_
  rintro cycles after afterMemory current - - ⟨-, ⟨inst, _, fetched, opcode, -⟩,
    atEnd, -⟩
  have isLast : current.warpPc = 4 := Nat.succ.inj atEnd
  rw [isLast] at fetched
  cases fetched
  cases opcode

/--
A kernel whose last instruction is the branch of a loop.  Some lanes skip
instruction 2, so that a path inside the kernel waits while the others loop.
-/
def loopKernel : Kernel where
  instructions :=
    [⟨.cmp, -1, 0, 1, 0⟩,
      ⟨.branch, -1, -1, -1, 2⟩,
      ⟨.mov, 3, -1, -1, 7⟩,
      ⟨.add, 0, 0, 5, 0⟩,
      ⟨.cmp, -1, 0, 2, 0⟩,
      ⟨.branch, -1, -1, -1, -2⟩]
  lengthFits := by decide

/-- Lane 0 loops once more, lane 1 does not loop, lane 2 does not skip. -/
def loopWarp : Warp :=
  Warp.ofThreads 0
    [((Thread.new 0 0 0 0 0).seed 5 1).seed 2 1,
      ((Thread.new 1 0 1 0 1).seed 5 1).seed 2 5,
      ((Thread.new 2 0 2 0 2).seed 1 1).seed 2 1]

/--
The loop kernel loses lane 2: when lanes 0 and 1 part at the last instruction,
the deferred lane 1 starts past the end, and its fetch completes the warp while
lane 2 still waits for instruction 2.
-/
theorem loop_loses_a_lane :
    ¬ ∀ (kernel : Kernel) (warp : Warp) (sm : SM Scheduler)
        (memory : MemorySystem) (outcomes : List LaneOutcome),
        kernel.Scalar →
        warp.Fresh →
        sm.Hosts warp →
        List.Forall₂ (SoloOutcome kernel) warp.lanes outcomes →
        CompletesWith kernel sm memory outcomes := by
  intro always
  have scalar : loopKernel.Scalar := by decide
  have fresh : loopWarp.Fresh :=
    Warp.fresh_ofThreads 0 (by decide) (by decide)
  have hosts := @SM.hosts_hosting loopWarp .greedy trivial
  have solo :=
    @forall₂_soloOutcome loopKernel 10 loopWarp.lanes scalar
      (by decide +kernel)
  have completes := always _ _ _ (.minimal 1) _ scalar fresh hosts solo
  have tracks :=
    @tracks_start loopKernel _ loopWarp fresh
      (solo.imp fun _ _ outcome => outcome.scalarRun scalar)
  have runs := fresh.runs hosts
  have computed :
      ((PathRun.steps loopKernel 4
          ⟨Warp.Fresh.start loopWarp.lanes, false⟩).map fun run =>
        (run.completed, run.paths.current, run.paths.taken,
          run.paths.pending.map Path.pc)) =
        some (false, ⟨3, 5⟩, 1, [2]) := by
    decide +kernel
  obtain ⟨run, reached, shape⟩ := Option.map_eq_some_iff.mp computed
  simp only [Prod.mk.injEq] at shape
  obtain ⟨running, current, taken, pending⟩ := shape
  obtain ⟨after, warp, ticked, afterRuns⟩ :=
    runs.ticks scalar.regular reached (.minimal 1)
  refine
    not_fatal_of_completesWith tracks runs scalar completes ticked
      afterRuns.hosts ((fatalDivergence_iff afterRuns).mpr ?_)
  obtain ⟨path, member, pc⟩ :=
    List.mem_map.mp (show 2 ∈ run.paths.pending.map Path.pc by simp [pending])
  refine
    ⟨running, ⟨.branch, -1, -1, -1, -2⟩, ?_, ⟨rfl, ?_, ?_⟩, ?_, path, member,
      ?_⟩
  · rw [current]
    rfl
  · rw [taken]
    decide
  · rw [taken, current]
    decide
  · rw [current]
    rfl
  · rw [pc]
    decide

end Divergence

end SimSm
