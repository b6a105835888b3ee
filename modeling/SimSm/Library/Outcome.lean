import Mathlib.Data.List.Forall2

namespace Outcome

/-!
# Outcomes of computations

A monadic program that ends in `ok` ran each of its steps to an `ok`.  These
equivalences take a program apart one step at a time, for exceptions alone and
for exceptions over a state.  What a program keeps, or never throws, follows its
structure as well.
-/

/-- A successful bind of exceptions has a successful first step. -/
theorem except_bind_ok
    {first : Except ε α}
    {next : α → Except ε β}
    {result : β} :
    (first >>= next) = .ok result ↔
      ∃ value, first = .ok value ∧ next value = .ok result := by
  cases first with
  | error error =>
      simp [bind, Except.bind]
  | ok value =>
      simp [bind, Except.bind]

/-- A successful map of exceptions has a successful argument. -/
theorem except_map_ok
    {first : Except ε α}
    {transform : α → β}
    {result : β} :
    first.map transform = .ok result ↔
      ∃ value, first = .ok value ∧ transform value = result := by
  cases first with
  | error error =>
      simp [Except.map]
  | ok value =>
      simp [Except.map]

/-- A traversal succeeds when each of its steps does. -/
theorem except_mapM_ok
    {step : α → Except ε β}
    {inputs : List α}
    {outputs : List β} :
    inputs.mapM step = .ok outputs ↔
      List.Forall₂ (fun input output => step input = .ok output)
        inputs outputs := by
  induction inputs generalizing outputs with
  | nil =>
      rw [List.mapM_nil, List.forall₂_nil_left_iff]
      constructor
      · rintro ⟨⟩
        rfl
      · rintro rfl
        rfl
  | cons input rest inductionHypothesis =>
      rw [List.mapM_cons, except_bind_ok, List.forall₂_cons_left_iff]
      constructor
      · rintro ⟨output, now, later⟩
        rcases except_bind_ok.mp later with ⟨others, ran, returned⟩
        cases returned
        exact ⟨output, others, now, inductionHypothesis.mp ran, rfl⟩
      · rintro ⟨output, others, now, later, rfl⟩
        refine ⟨output, now, except_bind_ok.mpr ⟨others, ?_, rfl⟩⟩
        exact inductionHypothesis.mpr later

/-- The value of an outcome is what it returned. -/
theorem except_toOption_some
    {outcome : Except ε α}
    {value : α} :
    outcome.toOption = some value ↔ outcome = .ok value := by
  cases outcome with
  | error error => exact iff_of_false nofun nofun
  | ok other =>
      rw [Except.ok.injEq]
      exact Option.some_inj

/-- An outcome that is there and is no error. -/
theorem option_any_isOk
    {ε α : Type}
    {outcome : Option (Except ε α)}
    (isOk : outcome.any Except.isOk = true) :
    ∃ value, outcome = some (.ok value) := by
  rw [Option.any_eq_true] at isOk
  obtain ⟨result, rfl, isResult⟩ := isOk
  cases result with
  | error _ => cases isResult
  | ok value => exact ⟨value, rfl⟩

/-- An outcome that is no exception has a value. -/
theorem except_ok_getD
    {outcome : Except ε α}
    {other : α}
    (isOk : outcome.isOk = true) :
    outcome = .ok (outcome.toOption.getD other) := by
  cases outcome with
  | error error => cases isOk
  | ok value => rfl

section State

variable {ε σ α β : Type}

/-- A successful stateful bind has a successful first step. -/
theorem state_bind_ok
    {first : EStateM ε σ α}
    {next : α → EStateM ε σ β}
    {before after : σ}
    {result : β} :
    (first >>= next) before = .ok result after ↔
      ∃ value middle,
        first before = .ok value middle ∧
          next value middle = .ok result after := by
  simp only [bind, EStateM.bind]
  cases first before with
  | ok value middle =>
      constructor
      · intro later
        exact ⟨value, middle, rfl, later⟩
      · rintro ⟨_, _, same, later⟩
        cases same
        exact later
  | error error middle =>
      simp

/-- Returning a value succeeds with it and keeps the state. -/
theorem state_pure_ok
    {value result : α}
    {before after : σ} :
    (pure value : EStateM ε σ α) before = .ok result after ↔
      value = result ∧ before = after := by
  simp [pure, EStateM.pure]

/-- Reading the state succeeds with it. -/
theorem state_get_ok
    {before after result : σ} :
    (get : EStateM ε σ σ) before = .ok result after ↔
      before = result ∧ before = after := by
  change EStateM.Result.ok before before = EStateM.Result.ok result after ↔ _
  rw [EStateM.Result.ok.injEq]

/-- Writing the state succeeds. -/
theorem state_set_ok
    {before after state : σ}
    {result : PUnit} :
    (set state : EStateM ε σ PUnit) before = .ok result after ↔
      state = after := by
  change EStateM.Result.ok PUnit.unit state = EStateM.Result.ok result after ↔ _
  rw [EStateM.Result.ok.injEq]
  exact and_iff_right rfl

/-- Modifying the state succeeds. -/
theorem state_modify_ok
    {update : σ → σ}
    {before after : σ}
    {result : PUnit} :
    (modify update : EStateM ε σ PUnit) before = .ok result after ↔
      update before = after := by
  change
    EStateM.Result.ok PUnit.unit (update before) =
      EStateM.Result.ok result after ↔ _
  rw [EStateM.Result.ok.injEq]
  exact and_iff_right rfl

/-- Throwing never succeeds. -/
theorem state_throw_not_ok
    {error : ε}
    {before after : σ}
    {result : α} :
    ¬ (throw error : EStateM ε σ α) before = .ok result after := by
  change
    ¬ EStateM.Result.error error before = EStateM.Result.ok result after
  exact nofun

end State

/-! ## Exceptions that are never thrown -/

/-- A computation that never ends in one given exception. -/
def Avoids {ε σ α : Type} (error : ε) (computation : EStateM ε σ α) : Prop :=
  ∀ before after, computation before ≠ .error error after

/-- A bind of exceptions that avoid an exception avoids it. -/
theorem except_bind_ne
    {error : ε}
    {first : Except ε α}
    {next : α → Except ε β}
    (avoids : first ≠ .error error)
    (later : ∀ value, next value ≠ .error error) :
    (first >>= next) ≠ .error error := by
  cases first with
  | error thrown =>
      intro same
      cases same
      exact avoids rfl
  | ok value => exact later value

namespace Avoids

variable {ε σ α β : Type}
variable {error : ε}

theorem pure (value : α) :
    Avoids error (Pure.pure value : EStateM ε σ α) :=
  fun _ _ thrown => by cases thrown

theorem bind
    {first : EStateM ε σ α}
    {next : α → EStateM ε σ β}
    (avoids : Avoids error first)
    (later : ∀ value, Avoids error (next value)) :
    Avoids error (first >>= next) := by
  intro before after
  change EStateM.bind first next before ≠ _
  unfold EStateM.bind
  cases shape : first before with
  | ok value state => exact later value state after
  | error thrown middle =>
      intro same
      cases same
      exact avoids before after shape

theorem get : Avoids error (MonadState.get : EStateM ε σ σ) :=
  fun _ _ thrown => by cases thrown

theorem set (state : σ) :
    Avoids error (MonadStateOf.set state : EStateM ε σ PUnit) :=
  fun _ _ thrown => by cases thrown

theorem modify (update : σ → σ) :
    Avoids error (modifyGet fun state => (PUnit.unit, update state) : EStateM ε σ PUnit) :=
  fun _ _ thrown => by cases thrown

theorem throw
    {thrown : ε}
    (other : thrown ≠ error) :
    Avoids error (MonadExcept.throw thrown : EStateM ε σ α) := by
  intro before after same
  cases same
  exact other rfl

end Avoids

/-- The state a computation leaves, whether it returns or throws. -/
def stateOf : EStateM.Result ε σ α → σ
  | .ok _ state => state
  | .error _ state => state

/-- A computation that keeps what is observed of the state, even if it throws. -/
def Keeps (observe : σ → γ) (computation : EStateM ε σ α) : Prop :=
  ∀ before, observe (stateOf (computation before)) = observe before

namespace Keeps

variable {observe : σ → γ}

theorem pure (value : α) :
    Keeps observe (Pure.pure value : EStateM ε σ α) :=
  fun _ => rfl

theorem throw (error : ε) :
    Keeps observe (MonadExcept.throw error : EStateM ε σ α) :=
  fun _ => rfl

theorem get : Keeps observe (MonadState.get : EStateM ε σ σ) :=
  fun _ => rfl

theorem bind
    {first : EStateM ε σ α}
    {next : α → EStateM ε σ β}
    (keeps : Keeps observe first)
    (later : ∀ value, Keeps observe (next value)) :
    Keeps observe (first >>= next) := by
  intro before
  have now := keeps before
  change observe (stateOf (EStateM.bind first next before)) = observe before
  unfold EStateM.bind
  generalize first before = result at now ⊢
  cases result with
  | ok value middle => exact (later value middle).trans now
  | error error middle => exact now

/-- When it returns. -/
theorem of_ok
    {computation : EStateM ε σ α}
    {before after : σ}
    {value : α}
    (keeps : Keeps observe computation)
    (ran : computation before = .ok value after) :
    observe after = observe before := by
  have kept := keeps before
  rwa [ran] at kept

/-- When it throws. -/
theorem of_error
    {computation : EStateM ε σ α}
    {before after : σ}
    {error : ε}
    (keeps : Keeps observe computation)
    (ran : computation before = .error error after) :
    observe after = observe before := by
  have kept := keeps before
  rwa [ran] at kept

end Keeps

/-- A computation that returns from a state with a property, and keeps it. -/
def Returns (holds : σ → Prop) (computation : EStateM ε σ α) : Prop :=
  ∀ before,
    holds before →
    ∃ value after, computation before = .ok value after ∧ holds after

namespace Returns

variable {ε σ α β : Type}
variable {holds : σ → Prop}

theorem pure (value : α) :
    Returns holds (Pure.pure value : EStateM ε σ α) :=
  fun before held => ⟨value, before, rfl, held⟩

theorem get : Returns holds (MonadState.get : EStateM ε σ σ) :=
  fun before held => ⟨before, before, rfl, held⟩

theorem bind
    {first : EStateM ε σ α}
    {next : α → EStateM ε σ β}
    (returns : Returns holds first)
    (later : ∀ value, Returns holds (next value)) :
    Returns holds (first >>= next) := by
  intro before held
  obtain ⟨value, middle, ran, heldNow⟩ := returns before held
  obtain ⟨result, after, ranLater, heldAfter⟩ := later value middle heldNow
  exact
    ⟨result, after, state_bind_ok.mpr ⟨value, middle, ran, ranLater⟩,
      heldAfter⟩

end Returns

/-- A sequence throws when its first part does, or its second part later. -/
theorem state_bind_error
    {first : EStateM ε σ α}
    {next : α → EStateM ε σ β}
    {before after : σ}
    {error : ε} :
    (first >>= next) before = .error error after ↔
      first before = .error error after ∨
        ∃ value middle,
          first before = .ok value middle ∧
            next value middle = .error error after := by
  change EStateM.bind first next before = _ ↔ _
  unfold EStateM.bind
  cases first before with
  | ok value middle =>
      constructor
      · exact fun threw => Or.inr ⟨value, middle, rfl, threw⟩
      · rintro (threw | ⟨_, _, ⟨⟩, threw⟩)
        · cases threw
        · exact threw
  | error thrown middle =>
      constructor
      · rintro ⟨⟩
        exact Or.inl rfl
      · rintro (⟨⟨⟩⟩ | ⟨_, _, ⟨⟩, _⟩)
        rfl

/-! ## Computations that may run out of fuel -/

/-- A computation that is seen to return does. -/
theorem fuelled_ok
    {outcome : Option (Except ε α)}
    (isOk : outcome.any Except.isOk = true) :
    ∃ value, outcome = some (.ok value) := by
  cases outcome with
  | none => cases isOk
  | some returned =>
      cases returned with
      | error error => cases isOk
      | ok value => exact ⟨value, rfl⟩

/-- A fuelled bind that returns has a first step that returns. -/
theorem fuelled_bind_ok
    {first : ExceptT ε Option α}
    {next : α → ExceptT ε Option β}
    {result : β} :
    (first >>= next).run = some (.ok result) ↔
      ∃ value,
        first.run = some (.ok value) ∧
          (next value).run = some (.ok result) := by
  rw [ExceptT.run_bind]
  cases first.run with
  | none => simp
  | some outcome =>
      cases outcome with
      | error error => simp
      | ok value => simp

/-- A fuelled traversal returns when each of its steps does. -/
theorem fuelled_mapM_ok
    {step : α → ExceptT ε Option β}
    {inputs : List α}
    {outputs : List β} :
    (inputs.mapM step).run = some (.ok outputs) ↔
      List.Forall₂
        (fun input output => (step input).run = some (.ok output))
        inputs outputs := by
  induction inputs generalizing outputs with
  | nil =>
      rw [List.mapM_nil, List.forall₂_nil_left_iff]
      constructor
      · rintro ⟨⟩
        rfl
      · rintro rfl
        rfl
  | cons input rest inductionHypothesis =>
      rw [List.mapM_cons, fuelled_bind_ok, List.forall₂_cons_left_iff]
      constructor
      · rintro ⟨output, now, later⟩
        obtain ⟨others, ran, returned⟩ := fuelled_bind_ok.mp later
        cases returned
        exact ⟨output, others, now, inductionHypothesis.mp ran, rfl⟩
      · rintro ⟨output, others, now, later, rfl⟩
        refine ⟨output, now, fuelled_bind_ok.mpr ⟨others, ?_, rfl⟩⟩
        exact inductionHypothesis.mpr later

/-- A fuelled traversal whose steps all return returns. -/
theorem fuelled_mapM_succeeds
    {step : α → ExceptT ε Option β}
    {inputs : List α}
    (succeeds :
      ∀ input ∈ inputs, ∃ output, (step input).run = some (.ok output)) :
    ∃ outputs, (inputs.mapM step).run = some (.ok outputs) := by
  induction inputs with
  | nil => exact ⟨[], rfl⟩
  | cons input rest inductionHypothesis =>
      obtain ⟨output, now⟩ := succeeds input List.mem_cons_self
      obtain ⟨outputs, later⟩ :=
        inductionHypothesis fun other member =>
          succeeds other (List.mem_cons_of_mem _ member)
      refine ⟨output :: outputs, ?_⟩
      rw [List.mapM_cons]
      exact
        fuelled_bind_ok.mpr
          ⟨output, now, fuelled_bind_ok.mpr ⟨outputs, later, rfl⟩⟩

end Outcome
