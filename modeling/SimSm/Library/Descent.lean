import Mathlib.Algebra.GroupWithZero.Nat
import SimSm.Library.Pointwise

namespace Descent

/-!
# Sums that descend

A total over a list, of which no summand grows and one shrinks, shrinks.  Totals
are carried from one list to a related one position by position.
-/

variable {α β : Type}
variable {related : α → β → Prop}
variable {firsts : List α}
variable {seconds : List β}
variable {before : α → Nat}
variable {after : β → Nat}

/-- A total of which no summand grows does not grow. -/
theorem sum_le
    (pointwise : List.Forall₂ related firsts seconds)
    (below :
      ∀ {first : α} {second : β},
        related first second → after second ≤ before first) :
    (seconds.map after).sum ≤ (firsts.map before).sum := by
  induction pointwise with
  | nil => exact Nat.le_refl _
  | cons head _ inductionHypothesis =>
      rw [List.map_cons, List.map_cons, List.sum_cons, List.sum_cons]
      exact Nat.add_le_add (below head) inductionHypothesis

/-- A total of which no summand grows and one shrinks does shrink. -/
theorem sum_lt
    (pointwise : List.Forall₂ related firsts seconds)
    (below :
      ∀ {first : α} {second : β},
        related first second → after second ≤ before first)
    {position : Nat}
    {first : α}
    {second : β}
    (isFirst : firsts[position]? = some first)
    (isSecond : seconds[position]? = some second)
    (shrinks : after second < before first) :
    (seconds.map after).sum < (firsts.map before).sum := by
  induction pointwise generalizing position with
  | nil => simp at isFirst
  | cons head rest inductionHypothesis =>
      rw [List.map_cons, List.map_cons, List.sum_cons, List.sum_cons]
      cases position with
      | zero =>
          rw [List.getElem?_cons_zero, Option.some.injEq]
            at isFirst isSecond
          subst isFirst isSecond
          exact Nat.add_lt_add_of_lt_of_le shrinks (sum_le rest below)
      | succ position =>
          rw [List.getElem?_cons_succ] at isFirst isSecond
          exact
            Nat.add_lt_add_of_le_of_lt (below head)
              (inductionHypothesis isFirst isSecond)

end Descent
