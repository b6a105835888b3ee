import Mathlib.Data.List.Nodup
import Mathlib.Data.List.Range

namespace Rotation

/-!
# Turns in rotation

Positions below a size are served in turns.  Each turn serves the eligible
position that is nearest ahead of a pointer, and moves the pointer past it.  A
position that stays eligible waits for less than `size` turns, and nobody else
is served twice while it waits.
-/

/-- How far a position is ahead of a pointer, cyclically. -/
def ahead (size pointer position : Nat) : Nat :=
  (position + (size - pointer % size)) % size

section Ahead

variable {size pointer position : Nat}

theorem ahead_lt
    (positive : 0 < size) :
    ahead size pointer position < size :=
  Nat.mod_lt _ positive

/-- Going ahead as far as a position is reaches it. -/
theorem add_ahead
    (inside : position < size) :
    (pointer + ahead size pointer position) % size = position := by
  have positive : 0 < size := Nat.zero_lt_of_lt inside
  have bound : pointer % size < size := Nat.mod_lt _ positive
  rw [ahead, Nat.add_mod_mod, ← Nat.mod_add_mod]
  have shape :
      pointer % size + (position + (size - pointer % size)) =
        position + size := by
    omega
  rw [shape, Nat.add_mod_right, Nat.mod_eq_of_lt inside]

/-- What is reached by going ahead is as far ahead. -/
theorem ahead_add
    {offset : Nat}
    (inside : offset < size) :
    ahead size pointer ((pointer + offset) % size) = offset := by
  have positive : 0 < size := Nat.zero_lt_of_lt inside
  have bound : pointer % size < size := Nat.mod_lt _ positive
  have whole := Nat.div_add_mod pointer size
  have shape :
      pointer + offset + (size - pointer % size) =
        offset + size * (pointer / size + 1) := by
    rw [Nat.mul_succ]
    omega
  rw [ahead, Nat.mod_add_mod, shape, Nat.add_mul_mod_self_left,
    Nat.mod_eq_of_lt inside]

/-- Going on from past a position is going ahead from the pointer. -/
theorem past_add
    {served : Nat}
    (servedInside : served < size)
    (offset : Nat) :
    ((served + 1) % size + offset) % size =
      (pointer + (ahead size pointer served + 1 + offset)) % size := by
  have reached := @add_ahead size pointer served servedInside
  calc
    ((served + 1) % size + offset) % size =
        (served + (1 + offset)) % size := by
      rw [Nat.mod_add_mod, Nat.add_assoc]
    _ =
        ((pointer + ahead size pointer served) % size + (1 + offset)) %
          size := by
      rw [reached]
    _ = (pointer + (ahead size pointer served + 1 + offset)) % size := by
      rw [Nat.mod_add_mod, Nat.add_assoc, Nat.add_assoc]

/-- Positions that are equally far ahead are the same. -/
theorem ahead_inj
    {other : Nat}
    (inside : position < size)
    (otherInside : other < size)
    (same : ahead size pointer position = ahead size pointer other) :
    position = other := by
  rw [← @add_ahead size pointer position inside, same,
    add_ahead otherInside]

/-- From past a position on, what was farther ahead is nearer by as much. -/
theorem ahead_past
    {served : Nat}
    (inside : position < size)
    (servedInside : served < size)
    (farther : ahead size pointer served < ahead size pointer position) :
    ahead size ((served + 1) % size) position =
      ahead size pointer position - ahead size pointer served - 1 := by
  have bound :=
    @ahead_lt size pointer position (Nat.zero_lt_of_lt inside)
  generalize left :
    ahead size pointer position - ahead size pointer served - 1 = offset
  have reached : ((served + 1) % size + offset) % size = position := by
    rw [@past_add size pointer served servedInside,
      show ahead size pointer served + 1 + offset =
        ahead size pointer position by omega,
      add_ahead inside]
  rw [← reached, ahead_add (by omega)]

/-- From past a position on, what was not farther is a round away. -/
theorem ahead_around
    {served : Nat}
    (inside : position < size)
    (servedInside : served < size)
    (notFarther :
      ahead size pointer position ≤ ahead size pointer served) :
    ahead size ((served + 1) % size) position =
      ahead size pointer position + size - ahead size pointer served - 1 := by
  have bound :=
    @ahead_lt size pointer served (Nat.zero_lt_of_lt inside)
  generalize left :
    ahead size pointer position + size - ahead size pointer served - 1 =
      offset
  have reached : ((served + 1) % size + offset) % size = position := by
    rw [@past_add size pointer served servedInside,
      show ahead size pointer served + 1 + offset =
        ahead size pointer position + size by omega,
      ← Nat.add_assoc, Nat.add_mod_right, add_ahead inside]
  rw [← reached, ahead_add (by omega)]

end Ahead

/-- The eligible position nearest ahead of a pointer is served. -/
structure Serves
    (size : Nat)
    (eligible : Nat → Prop)
    (pointer served : Nat) :
    Prop where
  inside : served < size
  isEligible : eligible served
  nearest :
    ∀ other < size,
      eligible other →
      ahead size pointer served ≤ ahead size pointer other

/-- Turns in a row, each with what was eligible and what was served. -/
inductive Turns (size : Nat) : Nat → List ((Nat → Prop) × Nat) → Prop where
  | nil
      (pointer : Nat) :
      Turns size pointer []
  | cons
      {pointer served : Nat}
      {eligible : Nat → Prop}
      {rest : List ((Nat → Prop) × Nat)}
      (serves : Serves size eligible pointer served)
      (turns : Turns size ((served + 1) % size) rest) :
      Turns size pointer ((eligible, served) :: rest)

namespace Turns

variable {size pointer position : Nat}
variable {turns : List ((Nat → Prop) × Nat)}

/-- Some turns are turns in a row. -/
theorem suffix
    {earlier later : List ((Nat → Prop) × Nat)}
    (inRow : Turns size pointer (earlier ++ later)) :
    ∃ pointer, Turns size pointer later := by
  induction earlier generalizing pointer with
  | nil => exact ⟨pointer, inRow⟩
  | cons turn earlier inductionHypothesis =>
      cases inRow with
      | cons _ rest => exact inductionHypothesis rest

/-- So are those before some of them. -/
theorem initial
    {earlier later : List ((Nat → Prop) × Nat)}
    (inRow : Turns size pointer (earlier ++ later)) :
    Turns size pointer earlier := by
  induction earlier generalizing pointer with
  | nil => exact .nil pointer
  | cons turn earlier inductionHypothesis =>
      cases inRow with
      | cons serves rest => exact .cons serves (inductionHypothesis rest)

/--
While a position waits, every turn serves a position nearer ahead of the first
pointer, each of them once.
-/
theorem waiting
    (inRow : Turns size pointer turns)
    (inside : position < size)
    (eligible : ∀ turn ∈ turns, turn.1 position)
    (waits : position ∉ turns.map Prod.snd) :
    (turns.map Prod.snd).Nodup ∧
      turns.length ≤ ahead size pointer position ∧
      ∀ served ∈ turns.map Prod.snd,
        served < size ∧
          ahead size pointer served < ahead size pointer position := by
  induction inRow with
  | nil pointer => exact ⟨List.nodup_nil, Nat.zero_le _, nofun⟩
  | cons serves rest inductionHypothesis =>
      rename_i pointer served isEligible later
      rw [List.map_cons, List.mem_cons, not_or] at waits
      obtain ⟨notServed, notLater⟩ := waits
      obtain ⟨once, few, nearer⟩ :=
        inductionHypothesis
          (fun turn member => eligible turn (List.mem_cons_of_mem _ member))
          notLater
      have near :
          ahead size pointer served < ahead size pointer position := by
        have notFarther :=
          serves.nearest position inside
            (eligible _ List.mem_cons_self)
        refine Nat.lt_of_le_of_ne notFarther fun same => ?_
        exact notServed (ahead_inj serves.inside inside same).symm
      rw [ahead_past inside serves.inside near] at few nearer
      have passed
          {next : Nat}
          (isLater : next ∈ later.map Prod.snd) :
          ahead size pointer served < ahead size pointer next ∧
            ahead size pointer next < ahead size pointer position := by
        obtain ⟨nextInside, nextNearer⟩ := nearer next isLater
        -- Were it not farther, it would come only after a whole round.
        have farther :
            ahead size pointer served < ahead size pointer next := by
          by_contra notFarther
          rw [ahead_around nextInside serves.inside
            (Nat.not_lt.mp notFarther)] at nextNearer
          have bound :=
            @ahead_lt size pointer position (Nat.zero_lt_of_lt inside)
          omega
        rw [ahead_past nextInside serves.inside farther] at nextNearer
        exact ⟨farther, by omega⟩
      refine ⟨?_, ?_, ?_⟩
      · rw [List.map_cons, List.nodup_cons]
        refine ⟨fun again => ?_, once⟩
        exact Nat.lt_irrefl _ (passed again).1
      · rw [List.length_cons]
        omega
      · intro next isNext
        rw [List.map_cons, List.mem_cons] at isNext
        rcases isNext with rfl | isLater
        · exact ⟨serves.inside, near⟩
        · exact ⟨(nearer next isLater).1, (passed isLater).2⟩

/-- A position that stays eligible is served within `size` turns. -/
theorem served
    (inRow : Turns size pointer turns)
    (inside : position < size)
    (eligible : ∀ turn ∈ turns, turn.1 position)
    (enough : size ≤ turns.length) :
    position ∈ turns.map Prod.snd := by
  by_contra waits
  obtain ⟨_, few, _⟩ := inRow.waiting inside eligible waits
  have bound :=
    @ahead_lt size pointer position (Nat.zero_lt_of_lt inside)
  omega

/-- Between two of its turns nobody else has two. -/
theorem between
    {earlier middle later : List ((Nat → Prop) × Nat)}
    (inRow : Turns size pointer (earlier ++ (middle ++ later)))
    (inside : position < size)
    (eligible : ∀ turn ∈ middle, turn.1 position)
    (waits : position ∉ middle.map Prod.snd) :
    (middle.map Prod.snd).Nodup := by
  obtain ⟨start, rest⟩ := inRow.suffix
  exact (rest.initial.waiting inside eligible waits).1

end Turns

end Rotation
