namespace Coupling

/-!
# Coupled computations

Two computations with state and exceptions, from related states.  They are
coupled when they end alike: both return the same value or both throw the same
exception, in related states.  Coupling follows the structure of the programs.
-/

variable {ε σ τ α β : Type}

/-- Two computations ended alike. -/
inductive Alike (related : σ → τ → Prop) :
    EStateM.Result ε σ α → EStateM.Result ε τ α → Prop where
  | ok
      {value : α}
      {left : σ}
      {right : τ}
      (holds : related left right) :
      Alike related (.ok value left) (.ok value right)
  | error
      {error : ε}
      {left : σ}
      {right : τ}
      (holds : related left right) :
      Alike related (.error error left) (.error error right)

/-- From related states two computations end alike. -/
def Coupled
    (related : σ → τ → Prop)
    (first : EStateM ε σ α)
    (second : EStateM ε τ α) : Prop :=
  ∀ left right, related left right → Alike related (first left) (second right)

namespace Coupled

variable {related : σ → τ → Prop}

/-- Returning one value. -/
theorem pure
    (value : α) :
    Coupled related
      (Pure.pure value : EStateM ε σ α) (Pure.pure value : EStateM ε τ α) :=
  fun _ _ holds => .ok holds

/-- Throwing one exception. -/
theorem throw
    (error : ε) :
    Coupled related
      (MonadExcept.throw error : EStateM ε σ α)
      (MonadExcept.throw error : EStateM ε τ α) :=
  fun _ _ holds => .error holds

/-- Updates that keep the states related. -/
theorem modify
    {leftUpdate : σ → σ}
    {rightUpdate : τ → τ}
    (keeps :
      ∀ left right,
        related left right → related (leftUpdate left) (rightUpdate right)) :
    Coupled related
      (modify leftUpdate : EStateM ε σ PUnit)
      (MonadState.modifyGet fun state => (PUnit.unit, rightUpdate state) :
        EStateM ε τ PUnit) :=
  fun left right holds => .ok (keeps left right holds)

/-- One computation after another. -/
theorem bind
    {first : EStateM ε σ α}
    {second : EStateM ε τ α}
    {firstNext : α → EStateM ε σ β}
    {secondNext : α → EStateM ε τ β}
    (coupled : Coupled related first second)
    (next :
      ∀ value, Coupled related (firstNext value) (secondNext value)) :
    Coupled related (first >>= firstNext) (second >>= secondNext) := by
  intro left right holds
  have alike := coupled left right holds
  change
    Alike related (EStateM.bind first firstNext left)
      (EStateM.bind second secondNext right)
  unfold EStateM.bind
  generalize first left = firstResult at alike ⊢
  generalize second right = secondResult at alike ⊢
  cases alike with
  | ok stillHolds => exact next _ _ _ stillHolds
  | error stillHolds => exact .error stillHolds

end Coupled

end Coupling
