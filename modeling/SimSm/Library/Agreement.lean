import SimSm.Library.Interleaving

namespace Interleaving

/-!
# Agents that agree on what they write

Agents may race when nothing depends on the race: every store of an address is
of one value, and no address is both loaded and stored.  Each agent then runs as
if memory never changed, and memory ends with what was agreed.
-/

variable {ι L α β : Type}

/-! ## Interleavings -/

section Interleavings

variable [DecidableEq ι]
variable [DecidableEq α]
variable [Add β]

/-- What agents reach from their starts when they step in any order. -/
inductive Interleaves
    (agent : Agent L α β)
    (start : ι → L)
    (initial : α → β) :
    (ι → L) → (α → β) → Prop where
  | start : Interleaves agent start initial start initial
  | step
      {here : ι → L}
      {memory : α → β}
      {name : ι}
      {performed : List (Access α β)}
      (sofar : Interleaves agent start initial here memory)
      (accesses : agent.accesses (here name) = some performed) :
      Interleaves agent start initial
        (Function.update here name (agent.next (here name) memory))
        (applyAll performed memory)

end Interleavings

/-- A run of one agent in a memory that does not change. -/
inductive Agent.Watches
    (agent : Agent L α β)
    (view : α → β) :
    L → List (Access α β) → L → Prop where
  | here (here : L) : Watches agent view here [] here
  | step
      {here there : L}
      {performed later : List (Access α β)}
      (accesses : agent.accesses here = some performed)
      (rest : Watches agent view (agent.next here view) later there) :
      Watches agent view here (performed ++ later) there

namespace Agent.Watches

variable {agent : Agent L α β}
variable {view : α → β}
variable {here there : L}
variable {performed log : List (Access α β)}

/-- A stopped agent runs nowhere. -/
theorem of_stopped
    (run : agent.Watches view here log there)
    (stopped : agent.accesses here = none) :
    log = [] ∧ there = here := by
  cases run with
  | here => exact ⟨rfl, rfl⟩
  | step accesses _ =>
      rw [stopped] at accesses
      cases accesses

/-- A run to where the agent stops makes every step that can be made. -/
theorem advance
    (run : agent.Watches view here log there)
    (stops : agent.accesses there = none)
    (accesses : agent.accesses here = some performed) :
    ∃ later,
      log = performed ++ later ∧
        agent.Watches view (agent.next here view) later there := by
  cases run with
  | here =>
      rw [stops] at accesses
      cases accesses
  | step accessed rest =>
      rw [accessed] at accesses
      cases accesses
      exact ⟨_, rfl, rest⟩

end Agent.Watches

/-! ## Agreements -/

/--
An access that keeps to an agreement on what is stored where: it loads where
nothing is stored, or stores what was agreed.
-/
def Agrees
    (target : α → Option β)
    (scope : α → Prop) :
    Access α β → Prop
  | .load address => scope address ∧ target address = none
  | .store address value => scope address ∧ target address = some value
  | .add _ _ => False

/-- Some access of a log stores to an address. -/
def Stored (log : List (Access α β)) (address : α) : Prop :=
  ∃ value, .store address value ∈ log

section Agreement

variable {target : α → Option β}
variable {scope : α → Prop}
variable {performed earlier later : List (Access α β)}
variable {address : α}

theorem Agrees.inScope
    {access : Access α β}
    (agrees : Agrees target scope access) :
    scope access.address := by
  cases access with
  | load => exact agrees.1
  | store => exact agrees.1
  | add => exact agrees.elim

theorem stored_append :
    Stored (earlier ++ later) address ↔
      Stored earlier address ∨ Stored later address := by
  simp only [Stored, List.mem_append, exists_or]

/-- What one log that keeps to an agreement leaves in memory. -/
theorem applyAll_agreed
    [DecidableEq α]
    [Add β]
    (agrees : ∀ access ∈ performed, Agrees target scope access)
    (memory : α → β) :
    (Stored performed address →
        target address = some (applyAll performed memory address)) ∧
      (¬ Stored performed address →
        applyAll performed memory address = memory address) := by
  induction performed using List.reverseRecOn with
  | nil =>
      refine ⟨?_, fun _ => rfl⟩
      rintro ⟨_, member⟩
      cases member
  | append_singleton performed access inductionHypothesis =>
      obtain ⟨before, elsewhere⟩ :=
        inductionHypothesis fun other member =>
          agrees other (List.mem_append_left _ member)
      have now :=
        agrees access (List.mem_append_right _ (List.mem_singleton_self _))
      rw [applyAll_append, stored_append]
      cases access with
      | add => exact now.elim
      | load other =>
          have notStored : ¬ Stored [(.load other : Access α β)] address := by
            rintro ⟨_, member⟩
            cases List.mem_singleton.mp member
          constructor
          · exact fun stored => before (stored.resolve_right notStored)
          · exact fun unstored => elsewhere fun stored => unstored (.inl stored)
      | store other value =>
          by_cases same : address = other
          · subst same
            constructor
            · intro _
              have written :
                  applyAll [Access.store address value]
                      (applyAll performed memory) address =
                    value :=
                Function.update_self _ _ _
              rw [written]
              exact now.2
            · intro unstored
              exact
                (unstored
                  (.inr ⟨value, List.mem_singleton_self _⟩)).elim
          · have notHere : ¬ Stored [Access.store other value] address := by
              rintro ⟨_, member⟩
              cases List.mem_singleton.mp member
              exact same rfl
            have kept :
                applyAll [Access.store other value]
                    (applyAll performed memory) address =
                  applyAll performed memory address :=
              Function.update_of_ne same _ _
            rw [kept]
            constructor
            · exact fun stored => before (stored.resolve_right notHere)
            · exact fun unstored =>
                elsewhere fun stored => unstored (.inl stored)

/-- What agents that keep to an agreement load never changes. -/
theorem next_agreed
    {agent : Agent L α β}
    {here : L}
    {initial memory : α → β}
    (unwritten :
      ∀ address, target address = none → memory address = initial address)
    (accesses : agent.accesses here = some performed)
    (agrees : ∀ access ∈ performed, Agrees target scope access) :
    agent.next here memory = agent.next here initial :=
  agent.consults accesses fun address member =>
    unwritten address (agrees _ member).2

end Agreement

/-! ## Interleavings of agents that agree -/

section System

variable {agent : Agent L α β}
variable {target : α → Option β}
variable {scope : α → Prop}
variable {start stop here : ι → L}
variable {initial memory : α → β}
variable {log : ι → List (Access α β)}

/-- How far agents have come that keep to an agreement. -/
structure Agreed
    (agent : Agent L α β)
    (target : α → Option β)
    (initial : α → β)
    (log : ι → List (Access α β))
    (stop here : ι → L)
    (memory : α → β)
    (done rest : ι → List (Access α β)) : Prop where
  split : ∀ name, log name = done name ++ rest name
  ahead : ∀ name, agent.Watches initial (here name) (rest name) (stop name)
  stored :
    ∀ address,
      (∃ name, Stored (done name) address) →
      target address = some (memory address)
  unstored :
    ∀ address,
      (¬ ∃ name, Stored (done name) address) →
      memory address = initial address

/-- Addresses without an agreed value hold what they held. -/
theorem Agreed.unwritten
    {done rest : ι → List (Access α β)}
    (agreed : Agreed agent target initial log stop here memory done rest)
    {address : α}
    (nothing : target address = none) :
    memory address = initial address := by
  refine agreed.unstored address fun stored => ?_
  have holds := agreed.stored address stored
  rw [nothing] at holds
  cases holds

/-- The next step of an agent keeps to the agreement. -/
theorem Agreed.agrees_next
    {done rest : ι → List (Access α β)}
    (agreed : Agreed agent target initial log stop here memory done rest)
    (stops : ∀ name, agent.accesses (stop name) = none)
    (agrees : ∀ name, ∀ access ∈ log name, Agrees target scope access)
    {name : ι}
    {performed : List (Access α β)}
    (accesses : agent.accesses (here name) = some performed) :
    ∀ access ∈ performed, Agrees target scope access := by
  obtain ⟨later, isRest, _⟩ :=
    (agreed.ahead name).advance (stops name) accesses
  intro access member
  refine agrees name access ?_
  rw [agreed.split, isRest]
  exact List.mem_append_right _ (List.mem_append_left _ member)

/--
Every interleaving takes agents that keep to an agreement along the runs that
they make alone, and writes what was agreed.
-/
theorem Interleaves.agreed
    [DecidableEq ι]
    [DecidableEq α]
    [Add β]
    (plans : ∀ name, agent.Watches initial (start name) (log name) (stop name))
    (stops : ∀ name, agent.accesses (stop name) = none)
    (agrees : ∀ name, ∀ access ∈ log name, Agrees target scope access)
    (run : Interleaves agent start initial here memory) :
    ∃ done rest,
      Agreed agent target initial log stop here memory done rest := by
  induction run with
  | start =>
      refine ⟨fun _ => [], log, fun _ => rfl, plans, ?_, fun _ _ => rfl⟩
      rintro address ⟨_, _, member⟩
      cases member
  | step sofar accesses inductionHypothesis =>
      rename_i here memory name performed
      obtain ⟨done, rest, agreed⟩ := inductionHypothesis
      obtain ⟨later, isRest, ahead⟩ :=
        (agreed.ahead name).advance (stops name) accesses
      have keeps := agreed.agrees_next stops agrees accesses
      have moved (address : α) :=
        @applyAll_agreed _ _ _ _ _ address _ _ keeps memory
      have sameNext :
          agent.next (here name) memory = agent.next (here name) initial :=
        next_agreed (fun _ => agreed.unwritten) accesses keeps
      have doneNow (address : α) :
          (∃ other,
              Stored
                (Function.update done name (done name ++ performed) other)
                address) ↔
            (∃ other, Stored (done other) address) ∨
              Stored performed address := by
        constructor
        · rintro ⟨other, stored⟩
          by_cases same : other = name
          · subst same
            rw [Function.update_self, stored_append] at stored
            exact stored.imp_left fun before => ⟨other, before⟩
          · rw [Function.update_of_ne same] at stored
            exact .inl ⟨other, stored⟩
        · rintro (⟨other, stored⟩ | stored)
          · refine ⟨other, ?_⟩
            by_cases same : other = name
            · subst same
              rw [Function.update_self, stored_append]
              exact .inl stored
            · rwa [Function.update_of_ne same]
          · refine ⟨name, ?_⟩
            rw [Function.update_self, stored_append]
            exact .inr stored
      refine
        ⟨Function.update done name (done name ++ performed),
          Function.update rest name later, ?_, ?_, ?_, ?_⟩
      · intro other
        by_cases same : other = name
        · subst same
          rw [Function.update_self, Function.update_self, agreed.split,
            isRest, List.append_assoc]
        · rw [Function.update_of_ne same, Function.update_of_ne same]
          exact agreed.split other
      · intro other
        by_cases same : other = name
        · subst same
          rw [Function.update_self, Function.update_self, sameNext]
          exact ahead
        · rw [Function.update_of_ne same, Function.update_of_ne same]
          exact agreed.ahead other
      · intro address stored
        obtain ⟨now, elsewhere⟩ := moved address
        by_cases here : Stored performed address
        · exact now here
        · rw [elsewhere here]
          exact
            agreed.stored address
              (((doneNow address).mp stored).resolve_right here)
      · intro address unstored
        rw [doneNow, not_or] at unstored
        rw [(moved address).2 unstored.2]
        exact agreed.unstored address unstored.1

/-- Agents that have all stopped have written all that was agreed. -/
theorem Agreed.atEnd
    {done rest : ι → List (Access α β)}
    (agreed : Agreed agent target initial log stop here memory done rest)
    (stopped : ∀ name, agent.accesses (here name) = none)
    (address : α) :
    ((∃ name, Stored (log name) address) →
        target address = some (memory address)) ∧
      ((¬ ∃ name, Stored (log name) address) →
        memory address = initial address) := by
  have allDone : done = log := by
    funext name
    rw [agreed.split name, ((agreed.ahead name).of_stopped (stopped name)).1,
      List.append_nil]
  subst allDone
  exact ⟨agreed.stored address, agreed.unstored address⟩

end System

end Interleaving
