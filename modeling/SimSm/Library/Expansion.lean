import Mathlib.Algebra.BigOperators.Group.List.Basic

/-!
# Expanding a list of states dimension by dimension

Every state is replaced by as many as a dimension has values, each with one of
the values assigned; an empty dimension leaves the states alone.  The position
of a state after the expansion is a pair of its position before and of the
position of its value.
-/

namespace Expansion

variable {σ α : Type}

/-- Assign every value to every state, the values varying fastest. -/
def expand
    (values : List α)
    (assign : σ → α → σ)
    (states : List σ) :
    List σ :=
  if values.isEmpty then
    states
  else
    states.flatMap fun state => values.map (assign state)

/-- The number of states that a state is expanded to. -/
def radix (values : List α) : Nat :=
  max 1 values.length

/-- Assign the value at a position, if the dimension has one. -/
def assignAt
    (values : List α)
    (assign : σ → α → σ)
    (digit : Nat)
    (state : σ) :
    σ :=
  (values[digit]?.map (assign state)).getD state

theorem radix_pos (values : List α) : 0 < radix values :=
  Nat.lt_of_lt_of_le Nat.one_pos (Nat.le_max_left _ _)

/-- Blocks of one length are found by quotient and remainder. -/
theorem getElem?_flatMap_map
    {values : List α}
    (nonempty : values ≠ [])
    (assign : σ → α → σ)
    (states : List σ)
    (position : Nat) :
    (states.flatMap fun state => values.map (assign state))[position]? =
      states[position / values.length]?.bind fun state =>
        values[position % values.length]?.map (assign state) := by
  have positive : 0 < values.length := List.length_pos_iff.mpr nonempty
  induction states generalizing position with
  | nil => rfl
  | cons state rest inductionHypothesis =>
      rw [List.flatMap_cons]
      rcases Nat.lt_or_ge position values.length with first | later
      · rw [List.getElem?_append_left (by rwa [List.length_map]),
          List.getElem?_map, Nat.div_eq_of_lt first,
          Nat.mod_eq_of_lt first]
        rfl
      · rw [List.getElem?_append_right (by rwa [List.length_map]),
          List.length_map, inductionHypothesis,
          Nat.div_eq_sub_div positive later,
          Nat.mod_eq_sub_mod later, List.getElem?_cons_succ]

section Dimension

variable (values : List α)
variable (assign : σ → α → σ)
variable (states : List σ)

/-- An expansion multiplies the number of states. -/
theorem length_expand :
    (expand values assign states).length =
      states.length * radix values := by
  unfold expand radix
  split
  · rename_i empty
    rw [List.isEmpty_iff.mp empty, List.length_nil, Nat.max_eq_left
      (Nat.zero_le 1), Nat.mul_one]
  · rename_i nonempty
    have positive : 1 ≤ values.length := by
      rw [List.isEmpty_iff] at nonempty
      exact List.length_pos_iff.mpr nonempty
    rw [List.length_flatMap, Nat.max_eq_right positive]
    simp only [List.length_map, List.map_const', List.sum_replicate_nat]

/-- What stands at a position after an expansion. -/
theorem getElem?_expand
    (position : Nat) :
    (expand values assign states)[position]? =
      states[position / radix values]?.map
        (assignAt values assign (position % radix values)) := by
  unfold expand radix assignAt
  split
  · rename_i empty
    rw [List.isEmpty_iff.mp empty, List.length_nil, Nat.max_eq_left
      (Nat.zero_le 1), Nat.div_one]
    exact Option.map_id.symm ▸ rfl
  · rename_i nonempty
    rw [List.isEmpty_iff] at nonempty
    have positive : 0 < values.length := List.length_pos_iff.mpr nonempty
    rw [getElem?_flatMap_map nonempty, Nat.max_eq_right positive]
    cases states[position / values.length]? with
    | none => rfl
    | some state =>
        have inside := Nat.mod_lt position positive
        rw [Option.bind_some, Option.map_some,
          List.getElem?_eq_getElem inside]
        rfl

end Dimension

/-! ## Digits -/

section Digits

variable {high low count size position : Nat}

/-- A position is made of its quotient and its remainder only. -/
theorem digits_iff
    (inside : low < size) :
    position / size = high ∧ position % size = low ↔
      position = high * size + low := by
  constructor
  · rintro ⟨rfl, rfl⟩
    exact (Nat.div_add_mod' position size).symm
  · rintro rfl
    have positive := Nat.zero_lt_of_lt inside
    rw [Nat.mul_comm, Nat.mul_add_div positive, Nat.div_eq_of_lt inside,
      Nat.mul_add_mod, Nat.mod_eq_of_lt inside]
    exact ⟨Nat.add_zero _, rfl⟩

/-- Digits in range make a position in range. -/
theorem position_lt
    (highInside : high < count)
    (lowInside : low < size) :
    high * size + low < count * size := by
  have next : (high + 1) * size ≤ count * size :=
    Nat.mul_le_mul_right size highInside
  rw [Nat.succ_mul] at next
  omega

end Digits

end Expansion
