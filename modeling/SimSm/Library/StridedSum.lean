import Mathlib.Algebra.Order.BigOperators.Group.List
import Mathlib.Algebra.GroupWithZero.Nat
import Mathlib.Algebra.Order.Group.Nat
import Mathlib.Data.List.Nodup

/-!
# Sums in rounds of strides

In a round every position below the stride gains the value one stride further.
When each stride is more than all later ones together, position zero gathers
the values at all sums of strides, each once.
-/

namespace StridedSum

variable {α : Type} [AddCommMonoid α]

/-- Add to every position below the stride the value one stride further. -/
def round
    (stride : Nat)
    (value : Nat → α)
    (position : Nat) :
    α :=
  if position < stride then
    value position + value (position + stride)
  else
    value position

/-- Rounds of several strides in order. -/
def rounds (strides : List Nat) (value : Nat → α) : Nat → α :=
  strides.foldl (fun value stride => round stride value) value

/-- The positions whose values the first one gathers. -/
def gathered : List Nat → List Nat
  | [] => [0]
  | stride :: rest =>
      gathered rest ++ (gathered rest).map (· + stride)

/-- Every stride is more than all later ones together. -/
def Falling : List Nat → Prop
  | [] => True
  | stride :: rest => rest.sum < stride ∧ Falling rest

theorem rounds_cons
    (stride : Nat)
    (rest : List Nat)
    (value : Nat → α) :
    rounds (stride :: rest) value = rounds rest (round stride value) :=
  rfl

/-- A position is gathered if some of the strides add up to it. -/
theorem mem_gathered
    {strides : List Nat}
    {position : Nat} :
    position ∈ gathered strides ↔
      ∃ chosen : List Nat,
        chosen.Sublist strides ∧ chosen.sum = position := by
  induction strides generalizing position with
  | nil =>
      simp [gathered, eq_comm]
  | cons stride rest inductionHypothesis =>
      rw [gathered, List.mem_append, inductionHypothesis, List.mem_map]
      constructor
      · rintro (⟨chosen, isSublist, isSum⟩ | ⟨other, member, rfl⟩)
        · exact ⟨chosen, isSublist.cons _, isSum⟩
        · obtain ⟨chosen, isSublist, rfl⟩ := inductionHypothesis.mp member
          exact
            ⟨stride :: chosen, isSublist.cons_cons _, by
              rw [List.sum_cons, Nat.add_comm]⟩
      · rintro ⟨chosen, isSublist, rfl⟩
        cases isSublist with
        | cons _ isSublist => exact Or.inl ⟨chosen, isSublist, rfl⟩
        | cons_cons _ isSublist =>
            rename_i chosen
            refine
              Or.inr
                ⟨chosen.sum, inductionHypothesis.mpr ⟨_, isSublist, rfl⟩, ?_⟩
            rw [List.sum_cons, Nat.add_comm]

/-- No position past the sum of all strides is gathered. -/
theorem le_sum_of_gathered
    {strides : List Nat}
    {position : Nat}
    (member : position ∈ gathered strides) :
    position ≤ strides.sum := by
  obtain ⟨chosen, isSublist, rfl⟩ := mem_gathered.mp member
  exact isSublist.sum_le_sum fun _ _ => Nat.zero_le _

/-- Different choices of falling strides have different sums. -/
theorem gathered_nodup
    {strides : List Nat}
    (falling : Falling strides) :
    (gathered strides).Nodup := by
  induction strides with
  | nil => exact List.nodup_singleton 0
  | cons stride rest inductionHypothesis =>
      have distinct := inductionHypothesis falling.2
      refine
        List.Nodup.append distinct
          (distinct.map (add_left_injective stride)) ?_
      intro position first second
      obtain ⟨other, _, rfl⟩ := List.mem_map.mp second
      have small := le_sum_of_gathered first
      have falls := falling.1
      omega

/-- The first position gathers the values at the sums of falling strides. -/
theorem rounds_zero
    {strides : List Nat}
    (falling : Falling strides)
    (value : Nat → α) :
    rounds strides value 0 = ((gathered strides).map value).sum := by
  induction strides generalizing value with
  | nil => simp [rounds, gathered]
  | cons stride rest inductionHypothesis =>
      rw [rounds_cons, inductionHypothesis falling.2, gathered,
        List.map_append, List.sum_append, List.map_map, ← List.sum_map_add]
      refine congrArg List.sum (List.map_congr_left fun position member => ?_)
      have below :=
        Nat.lt_of_le_of_lt (le_sum_of_gathered member) falling.1
      exact if_pos below

end StridedSum
