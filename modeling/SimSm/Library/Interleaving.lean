import Mathlib.Algebra.BigOperators.Group.Finset.Basic
import Mathlib.Algebra.BigOperators.Group.Finset.Piecewise
import Mathlib.Tactic.Abel

namespace Interleaving

/-!
# Agents that share a memory without races

Deterministic agents load, store and add at the addresses of one memory, in any
order.  When every address is used by one agent only, or loaded only, or added
to only, each agent proceeds as if it were alone, and the memory is what the
agents' own memories make up together.
-/

/-- One access to memory. -/
inductive Access (α β : Type) where
  | load (address : α)
  | store (address : α) (value : β)
  | add (address : α) (value : β)

/-- What an access does at its address. -/
inductive AccessKind where
  | load
  | store
  | add
  deriving DecidableEq

namespace Access

variable {α β : Type}

/-- The address of an access. -/
def address : Access α β → α
  | .load address => address
  | .store address _ => address
  | .add address _ => address

/-- The kind of an access. -/
def kind : Access α β → AccessKind
  | .load _ => .load
  | .store _ _ => .store
  | .add _ _ => .add

/-- Perform an access. -/
def apply [DecidableEq α] [Add β] (memory : α → β) : Access α β → α → β
  | .load _ => memory
  | .store address value => Function.update memory address value
  | .add address value =>
      Function.update memory address (memory address + value)

end Access

/-- Perform accesses in order. -/
def applyAll {α β : Type} [DecidableEq α] [Add β]
    (accesses : List (Access α β))
    (memory : α → β) :
    α → β :=
  accesses.foldl Access.apply memory

section Memory

variable {α β : Type}
variable [DecidableEq α]
variable {accesses : List (Access α β)}
variable {memory other : α → β}
variable {address : α}

/-- Accesses can be performed one part after the other. -/
theorem applyAll_append
    [Add β]
    (earlier later : List (Access α β))
    (memory : α → β) :
    applyAll (earlier ++ later) memory =
      applyAll later (applyAll earlier memory) :=
  List.foldl_append

/-- Where nothing but loads happen, memory stays as it is. -/
theorem applyAll_of_loads
    [Add β]
    (loads :
      ∀ access ∈ accesses,
        access.address = address → access.kind = .load) :
    applyAll accesses memory address = memory address := by
  induction accesses generalizing memory with
  | nil => rfl
  | cons access rest inductionHypothesis =>
      have first := loads access List.mem_cons_self
      have others :=
        @inductionHypothesis (access.apply memory)
          fun access member => loads access (List.mem_cons_of_mem _ member)
      change applyAll rest (access.apply memory) address = _
      rw [others]
      cases access with
      | load _ => rfl
      | store target value =>
          by_cases same : target = address
          · cases first same
          · exact Function.update_of_ne (Ne.symm same) _ _
      | add target value =>
          by_cases same : target = address
          · cases first same
          · exact Function.update_of_ne (Ne.symm same) _ _

/-- What accesses leave at an address depends on what was there. -/
theorem applyAll_congr
    [Add β]
    (same : memory address = other address) :
    applyAll accesses memory address = applyAll accesses other address := by
  induction accesses generalizing memory other with
  | nil => exact same
  | cons access rest inductionHypothesis =>
      apply inductionHypothesis
      cases access with
      | load _ => exact same
      | store target value =>
          by_cases here : address = target
          · subst here
            simp only [Access.apply, Function.update_self]
          · simp only [Access.apply, Function.update_of_ne here, same]
      | add target value =>
          by_cases here : address = target
          · subst here
            simp only [Access.apply, Function.update_self, same]
          · simp only [Access.apply, Function.update_of_ne here, same]

/-- Where nothing but additions happen, they add the same to any memory. -/
theorem applyAll_of_adds
    [AddCommGroup β]
    (adds :
      ∀ access ∈ accesses,
        access.address = address → access.kind = .add) :
    applyAll accesses memory address =
      memory address +
        (applyAll accesses other address - other address) := by
  induction accesses generalizing memory other with
  | nil => simp [applyAll]
  | cons access rest inductionHypothesis =>
      have first := adds access List.mem_cons_self
      have others :=
        @inductionHypothesis (access.apply memory) (access.apply other)
          fun access member => adds access (List.mem_cons_of_mem _ member)
      change
        applyAll rest (access.apply memory) address =
          memory address +
            (applyAll rest (access.apply other) address - other address)
      rw [others]
      cases access with
      | load target =>
          by_cases here : target = address
          · cases first here
          · rfl
      | store target value =>
          by_cases here : address = target
          · cases first here.symm
          · simp only [Access.apply, Function.update_of_ne here]
      | add target value =>
          by_cases here : address = target
          · subst here
            simp only [Access.apply, Function.update_self]
            abel
          · simp only [Access.apply, Function.update_of_ne here]

end Memory

/-! ## Agents -/

/--
A deterministic agent.  Where it is decides what it accesses next, `none` when
it has stopped; the memory decides only what it loads.
-/
structure Agent (L α β : Type) where
  accesses : L → Option (List (Access α β))
  next : L → (α → β) → L
  consults :
    ∀ {here : L} {memory other : α → β} {performed : List (Access α β)},
      accesses here = some performed →
      (∀ address, .load address ∈ performed →
        memory address = other address) →
      next here memory = next here other

section Alone

variable {L α β : Type}
variable [DecidableEq α]
variable [Add β]

/-- A run of one agent that is alone with its memory and keeps to some accesses. -/
inductive Agent.Alone
    (agent : Agent L α β)
    (allowed : Access α β → Prop) :
    L → (α → β) → L → (α → β) → Prop where
  | here
      (here : L)
      (memory : α → β) :
      Alone agent allowed here memory here memory
  | step
      {here there : L}
      {memory final : α → β}
      {performed : List (Access α β)}
      (accesses : agent.accesses here = some performed)
      (keeps : ∀ access ∈ performed, allowed access)
      (rest :
        Alone agent allowed (agent.next here memory)
          (applyAll performed memory) there final) :
      Alone agent allowed here memory there final

namespace Agent.Alone

variable {agent : Agent L α β}
variable {allowed : Access α β → Prop}
variable {here middle there : L}
variable {memory between final : α → β}

/-- Runs follow each other. -/
theorem trans
    (first : agent.Alone allowed here memory middle between)
    (second : agent.Alone allowed middle between there final) :
    agent.Alone allowed here memory there final := by
  induction first with
  | here => exact second
  | step accesses keeps _ inductionHypothesis =>
      exact .step accesses keeps (inductionHypothesis second)

/-- One more step at the end. -/
theorem extend
    {performed : List (Access α β)}
    (run : agent.Alone allowed here memory middle between)
    (accesses : agent.accesses middle = some performed)
    (keeps : ∀ access ∈ performed, allowed access) :
    agent.Alone allowed here memory (agent.next middle between)
      (applyAll performed between) :=
  run.trans (.step accesses keeps (.here _ _))

/-- A stopped agent runs nowhere. -/
theorem of_stopped
    (run : agent.Alone allowed here memory there final)
    (stopped : agent.accesses here = none) :
    there = here ∧ final = memory := by
  cases run with
  | here => exact ⟨rfl, rfl⟩
  | step accesses _ _ =>
      rw [stopped] at accesses
      cases accesses

/-- A run to where the agent stops makes every step that can be made. -/
theorem advance
    {performed : List (Access α β)}
    (run : agent.Alone allowed here memory there final)
    (stops : agent.accesses there = none)
    (accesses : agent.accesses here = some performed) :
    (∀ access ∈ performed, allowed access) ∧
      agent.Alone allowed (agent.next here memory)
        (applyAll performed memory) there final := by
  cases run with
  | here =>
      rw [stops] at accesses
      cases accesses
  | step accessed keeps rest =>
      rw [accessed] at accesses
      cases accesses
      exact ⟨keeps, rest⟩

end Agent.Alone

end Alone

/-! ## Race freedom -/

section RaceFree

variable {ι α β : Type}

/-- Nobody but one agent may use an address. -/
def Exclusive
    (may : ι → AccessKind → α → Prop)
    (owner : ι)
    (address : α) :
    Prop :=
  ∀ agent kind, may agent kind address → agent = owner

/-- An address may be used in one way only. -/
def OnlyKind
    (may : ι → AccessKind → α → Prop)
    (only : AccessKind)
    (address : α) :
    Prop :=
  ∀ agent kind, may agent kind address → kind = only

/-- Every address has one user, or is loaded only, or is added to only. -/
def RaceFree
    (may : ι → AccessKind → α → Prop)
    (scope : α → Prop) :
    Prop :=
  ∀ address,
    scope address →
      (∃ owner, Exclusive may owner address) ∨
        OnlyKind may .load address ∨ OnlyKind may .add address

/-- An access of an agent, of a kind that it may make, in scope. -/
def Allowed
    (may : ι → AccessKind → α → Prop)
    (scope : α → Prop)
    (agent : ι)
    (access : Access α β) :
    Prop :=
  may agent access.kind access.address ∧ scope access.address

variable [AddCommGroup β]

/--
The memory is what the agents' own memories make up together, on the addresses
in scope.
-/
structure Shares
    (agents : Finset ι)
    (may : ι → AccessKind → α → Prop)
    (scope : α → Prop)
    (initial : α → β)
    (own : ι → α → β)
    (memory : α → β) :
    Prop where
  exclusive :
    ∀ agent address,
      scope address →
      Exclusive may agent address →
      memory address = own agent address
  ownReadOnly :
    ∀ agent address,
      scope address →
      OnlyKind may .load address →
      own agent address = initial address
  readOnly :
    ∀ address,
      scope address →
      OnlyKind may .load address →
      memory address = initial address
  added :
    ∀ address,
      scope address →
      OnlyKind may .add address →
      memory address =
        initial address +
          ∑ agent ∈ agents, (own agent address - initial address)

namespace Shares

variable {agents : Finset ι}
variable {may : ι → AccessKind → α → Prop}
variable {scope : α → Prop}
variable {initial memory : α → β}
variable {own : ι → α → β}

/-- At the start every agent's own memory is the initial one. -/
theorem atStart
    (agents : Finset ι)
    (may : ι → AccessKind → α → Prop)
    (scope : α → Prop)
    (initial : α → β) :
    Shares agents may scope initial (fun _ => initial) initial where
  exclusive _ _ _ _ := rfl
  ownReadOnly _ _ _ _ := rfl
  readOnly _ _ _ := rfl
  added address _ _ := by simp

/-- Only the addresses in scope matter. -/
theorem frame
    {other : α → β}
    (shares : Shares agents may scope initial own memory)
    (same : ∀ address, scope address → other address = memory address) :
    Shares agents may scope initial own other where
  exclusive agent address inScope owned :=
    (same address inScope).trans
      (shares.exclusive agent address inScope owned)
  ownReadOnly := shares.ownReadOnly
  readOnly address inScope only :=
    (same address inScope).trans (shares.readOnly address inScope only)
  added address inScope only :=
    (same address inScope).trans (shares.added address inScope only)

/-- Without races an agent loads what it would load alone. -/
theorem loads_agree
    (shares : Shares agents may scope initial own memory)
    (raceFree : RaceFree may scope)
    {agent : ι}
    {address : α}
    (inScope : scope address)
    (mayLoad : may agent .load address) :
    memory address = own agent address := by
  rcases raceFree address inScope with ⟨owner, owned⟩ | only | only
  · rw [owned agent .load mayLoad]
    exact shares.exclusive owner address inScope owned
  · rw [shares.readOnly address inScope only,
      shares.ownReadOnly agent address inScope only]
  · cases only agent .load mayLoad

/-- An agent that steps in the shared memory steps as if it were alone. -/
theorem next_eq
    {L : Type}
    {program : Agent L α β}
    (shares : Shares agents may scope initial own memory)
    (raceFree : RaceFree may scope)
    {agent : ι}
    {here : L}
    {performed : List (Access α β)}
    (accesses : program.accesses here = some performed)
    (allowed : ∀ access ∈ performed, Allowed may scope agent access) :
    program.next here memory = program.next here (own agent) := by
  refine program.consults accesses fun address member => ?_
  obtain ⟨mayLoad, inScope⟩ := allowed _ member
  exact shares.loads_agree raceFree inScope mayLoad

/-- What one agent accesses happens to its own memory and to the shared one. -/
theorem step
    [DecidableEq ι]
    [DecidableEq α]
    (shares : Shares agents may scope initial own memory)
    {agent : ι}
    (isAgent : agent ∈ agents)
    {performed : List (Access α β)}
    (allowed : ∀ access ∈ performed, Allowed may scope agent access) :
    Shares agents may scope initial
      (Function.update own agent (applyAll performed (own agent)))
      (applyAll performed memory) where
  exclusive other address inScope owned := by
    have before := shares.exclusive other address inScope owned
    by_cases same : other = agent
    · subst same
      rw [Function.update_self]
      exact applyAll_congr before
    · rw [Function.update_of_ne same, ← before]
      apply applyAll_of_loads
      intro access member here
      have byThis := (allowed access member).1
      rw [here] at byThis
      exact (same (owned agent access.kind byThis).symm).elim
  ownReadOnly other address inScope only := by
    have before := shares.ownReadOnly other address inScope only
    by_cases same : other = agent
    · subst same
      rw [Function.update_self, ← before]
      apply applyAll_of_loads
      intro access member here
      apply only other
      rw [← here]
      exact (allowed access member).1
    · rw [Function.update_of_ne same]
      exact before
  readOnly address inScope only := by
    rw [← shares.readOnly address inScope only]
    apply applyAll_of_loads
    intro access member here
    apply only agent
    rw [← here]
    exact (allowed access member).1
  added address inScope only := by
    have before := shares.added address inScope only
    have adds :
        ∀ access ∈ performed,
          access.address = address → access.kind = .add := by
      intro access member here
      apply only agent
      rw [← here]
      exact (allowed access member).1
    rw [← Finset.add_sum_erase _ _ isAgent] at before ⊢
    rw [Function.update_self]
    have others :
        ∑ other ∈ agents.erase agent,
            (Function.update own agent (applyAll performed (own agent))
                other address -
              initial address) =
          ∑ other ∈ agents.erase agent,
            (own other address - initial address) := by
      refine Finset.sum_congr rfl fun other member => ?_
      rw [Function.update_of_ne (Finset.ne_of_mem_erase member)]
    rw [others,
      @applyAll_of_adds _ _ _ _ memory (own agent) _ _ adds, before]
    abel

/-- Several agents access memory, one after the other. -/
theorem parallel
    [DecidableEq ι]
    [DecidableEq α]
    {later : ι → α → β}
    (shares : Shares agents may scope initial own memory)
    {moving : List ι}
    (distinct : moving.Nodup)
    (areAgents : ∀ agent ∈ moving, agent ∈ agents)
    {performed : ι → List (Access α β)}
    (allowed :
      ∀ agent ∈ moving,
        ∀ access ∈ performed agent, Allowed may scope agent access)
    (moved :
      ∀ agent ∈ moving,
        later agent = applyAll (performed agent) (own agent))
    (stayed : ∀ agent, agent ∉ moving → later agent = own agent) :
    Shares agents may scope initial later
      (applyAll (moving.flatMap performed) memory) := by
  induction moving generalizing own memory with
  | nil =>
      have same : later = own :=
        funext fun agent => stayed agent List.not_mem_nil
      rw [same]
      exact shares
  | cons first rest inductionHypothesis =>
      rw [List.nodup_cons] at distinct
      have one :=
        shares.step (areAgents first List.mem_cons_self)
          (allowed first List.mem_cons_self)
      rw [List.flatMap_cons, applyAll_append]
      refine
        inductionHypothesis one distinct.2
          (fun agent member =>
            areAgents agent (List.mem_cons_of_mem _ member))
          (fun agent member => allowed agent (List.mem_cons_of_mem _ member))
          (fun agent member => ?_) fun agent outside => ?_
      · have other : agent ≠ first := by
          rintro rfl
          exact distinct.1 member
        rw [Function.update_of_ne other,
          moved agent (List.mem_cons_of_mem _ member)]
      · by_cases same : agent = first
        · subst same
          rw [Function.update_self, moved agent List.mem_cons_self]
        · rw [Function.update_of_ne same]
          refine stayed agent fun member => ?_
          rcases List.mem_cons.mp member with isFirst | inRest
          · exact same isFirst
          · exact outside inRest

/-- The agents' own memories determine the shared one. -/
theorem memory_unique
    {other : α → β}
    (shares : Shares agents may scope initial own memory)
    (sharesOther : Shares agents may scope initial own other)
    (raceFree : RaceFree may scope)
    {address : α}
    (inScope : scope address) :
    memory address = other address := by
  rcases raceFree address inScope with ⟨owner, owned⟩ | only | only
  · rw [shares.exclusive owner address inScope owned,
      sharesOther.exclusive owner address inScope owned]
  · rw [shares.readOnly address inScope only,
      sharesOther.readOnly address inScope only]
  · rw [shares.added address inScope only,
      sharesOther.added address inScope only]

end Shares

end RaceFree

/-! ## Declared uses -/

/-- How an address is used: by one agent, by loads only, or by additions only. -/
inductive Use (ι : Type) where
  | owned (owner : ι)
  | readOnly
  | addOnly

/-- What agents may do when the use of every address is declared. -/
def Use.may
    {ι α : Type}
    (use : α → Use ι)
    (agent : ι)
    (kind : AccessKind)
    (address : α) :
    Prop :=
  match use address with
  | .owned owner => agent = owner
  | .readOnly => kind = .load
  | .addOnly => kind = .add

section Declared

variable {ι α β : Type}
variable {use : α → Use ι}
variable {scope : α → Prop}
variable {address : α}

/-- Declared uses have no races. -/
theorem Use.raceFree
    (use : α → Use ι)
    (scope : α → Prop) :
    RaceFree (Use.may use) scope := by
  intro address _
  cases declared : use address with
  | owned owner =>
      refine Or.inl ⟨owner, fun agent kind may => ?_⟩
      rwa [Use.may, declared] at may
  | readOnly =>
      refine Or.inr (Or.inl fun agent kind may => ?_)
      rwa [Use.may, declared] at may
  | addOnly =>
      refine Or.inr (Or.inr fun agent kind may => ?_)
      rwa [Use.may, declared] at may

/-- What an agent accesses where it does not own, it only loads or adds to. -/
theorem Use.kind_of_readOnly
    {agent : ι}
    {access : Access α β}
    (declared : use access.address = .readOnly)
    (allowed : Allowed (Use.may use) scope agent access) :
    access.kind = .load := by
  have may := allowed.1
  rwa [Use.may, declared] at may

/-- An agent accesses what it owns as it likes. -/
theorem Use.allowed_owned
    {agent : ι}
    {access : Access α β}
    (declared : use access.address = .owned agent)
    (inScope : scope access.address) :
    Allowed (Use.may use) scope agent access := by
  refine ⟨?_, inScope⟩
  rw [Use.may, declared]

/-- Every agent loads what is only loaded. -/
theorem Use.allowed_load
    {agent : ι}
    (declared : use address = .readOnly)
    (inScope : scope address) :
    Allowed (Use.may use) scope agent (.load address : Access α β) := by
  have may : Use.may use agent .load address := by
    rw [Use.may, declared]
  exact ⟨may, inScope⟩

/-- Every agent adds to what is only added to. -/
theorem Use.allowed_add
    {agent : ι}
    {value : β}
    (declared : use address = .addOnly)
    (inScope : scope address) :
    Allowed (Use.may use) scope agent (.add address value) := by
  have may : Use.may use agent .add address := by
    rw [Use.may, declared]
  exact ⟨may, inScope⟩

variable [AddCommGroup β]
variable {agents : Finset ι}
variable {initial memory : α → β}
variable {own : ι → α → β}

/-- An address that one agent owns holds what that agent left there. -/
theorem Shares.of_owned
    {owner : ι}
    (shares : Shares agents (Use.may use) scope initial own memory)
    (inScope : scope address)
    (declared : use address = .owned owner) :
    memory address = own owner address := by
  refine shares.exclusive owner address inScope fun agent kind may => ?_
  rwa [Use.may, declared] at may

/-- An address that is only loaded holds what it held. -/
theorem Shares.of_readOnly
    (shares : Shares agents (Use.may use) scope initial own memory)
    (inScope : scope address)
    (declared : use address = .readOnly) :
    memory address = initial address := by
  refine shares.readOnly address inScope fun agent kind may => ?_
  rwa [Use.may, declared] at may

/-- An address that is only added to gains what every agent added alone. -/
theorem Shares.of_addOnly
    (shares : Shares agents (Use.may use) scope initial own memory)
    (inScope : scope address)
    (declared : use address = .addOnly) :
    memory address =
      initial address +
        ∑ agent ∈ agents, (own agent address - initial address) := by
  refine shares.added address inScope fun agent kind may => ?_
  rwa [Use.may, declared] at may

end Declared

end Interleaving
