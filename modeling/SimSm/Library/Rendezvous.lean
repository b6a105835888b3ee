import Mathlib.Data.Bool.Basic
import Mathlib.Logic.Function.Basic
import Mathlib.Logic.Relation

namespace Rendezvous

/-!
# Counting rendezvous

Parties are divided into groups.  A party that arrives waits, unless it is the
last one of its group: then the whole group is released.  Counting arrivals and
releases shows that no party gets ahead of its group by a round.
-/

/-- Who waits, and how often each party has arrived and was released. -/
@[ext] structure Board (ι : Type*) where
  waiting : ι → Bool
  arrivals : ι → Nat
  releases : ι → Nat

namespace Board

variable {ι γ : Type*}
variable {group : ι → γ}
variable {board after : Board ι}

/-- A party arrives and waits. -/
def arrive [DecidableEq ι] (board : Board ι) (party : ι) : Board ι where
  waiting := Function.update board.waiting party true
  arrivals :=
    Function.update board.arrivals party (board.arrivals party + 1)
  releases := board.releases

/-- A group is released. -/
def release
    [DecidableEq γ]
    (group : ι → γ)
    (released : γ)
    (board : Board ι) :
    Board ι where
  waiting := fun party =>
    board.waiting party && decide (group party ≠ released)
  arrivals := board.arrivals
  releases := fun party =>
    board.releases party + if group party = released then 1 else 0

/-- One step of the rendezvous. -/
inductive Step [DecidableEq ι] [DecidableEq γ] (group : ι → γ) :
    Board ι → Board ι → Prop where
  | idle
      (board : Board ι) :
      Step group board board
  | arrive
      {board : Board ι}
      {party : ι}
      (notWaiting : board.waiting party = false) :
      Step group board (board.arrive party)
  | rendezvous
      {board : Board ι}
      {party : ι}
      (notWaiting : board.waiting party = false)
      (others :
        ∀ other, other ≠ party →
          group other = group party →
          board.waiting other = true) :
      Step group board
        ((board.arrive party).release group (group party))

/-- Arrivals and releases explain who waits, and groups are released together. -/
structure Balanced (group : ι → γ) (board : Board ι) : Prop where
  balance :
    ∀ party,
      board.arrivals party =
        board.releases party + (board.waiting party).toNat
  together :
    ∀ {first second : ι},
      group first = group second →
      board.releases first = board.releases second

/-- A board on which nothing has happened is balanced. -/
theorem balanced_initial
    (group : ι → γ) :
    Balanced group ⟨fun _ => false, fun _ => 0, fun _ => 0⟩ :=
  ⟨fun _ => rfl, fun _ => rfl⟩

/-- An arrival is one more, and is explained by the wait. -/
theorem Balanced.arrive
    [DecidableEq ι]
    {party : ι}
    (balanced : Balanced group board)
    (notWaiting : board.waiting party = false) :
    Balanced group (board.arrive party) where
  balance := by
    intro query
    have before := balanced.balance query
    by_cases same : query = party
    · subst same
      simp only [Board.arrive, Function.update_self, Bool.toNat_true]
      rw [before, notWaiting]
      rfl
    · simp only [Board.arrive, Function.update_of_ne same]
      exact before
  together := balanced.together

/-- Releasing a group that waits as a whole keeps the balance. -/
theorem Balanced.release
    [DecidableEq γ]
    {released : γ}
    (balanced : Balanced group board)
    (allWait :
      ∀ party, group party = released → board.waiting party = true) :
    Balanced group (board.release group released) where
  balance := by
    intro query
    have before := balanced.balance query
    by_cases member : group query = released
    · rw [allWait query member] at before
      simp [Board.release, member, before]
    · simpa [Board.release, member] using before
  together := by
    intro first second sameGroup
    simp only [Board.release, sameGroup, balanced.together sameGroup]

/-- At a rendezvous the whole group waits. -/
theorem arrive_allWait
    [DecidableEq ι]
    {party : ι}
    (others :
      ∀ other, other ≠ party →
        group other = group party →
        board.waiting other = true) :
    ∀ member, group member = group party →
      (board.arrive party).waiting member = true := by
  intro member sameGroup
  by_cases same : member = party
  · subst same
    simp [Board.arrive]
  · simpa [Board.arrive, Function.update_of_ne same] using
      others member same sameGroup

/-- Every step keeps the balance. -/
theorem Step.balanced
    [DecidableEq ι]
    [DecidableEq γ]
    (step : Step group board after)
    (balanced : Balanced group board) :
    Balanced group after := by
  cases step with
  | idle =>
      exact balanced
  | arrive notWaiting =>
      exact balanced.arrive notWaiting
  | rendezvous notWaiting others =>
      exact (balanced.arrive notWaiting).release (arrive_allWait others)

/-- Every run keeps the balance. -/
theorem run_balanced
    [DecidableEq ι]
    [DecidableEq γ]
    (run : Relation.ReflTransGen (Step group) board after)
    (balanced : Balanced group board) :
    Balanced group after := by
  induction run with
  | refl => exact balanced
  | tail _ step inductionHypothesis => exact step.balanced inductionHypothesis

/-- No party is released more often than another of its group has arrived. -/
theorem Balanced.releases_le_arrivals
    {first second : ι}
    (balanced : Balanced group board)
    (sameGroup : group first = group second) :
    board.releases first ≤ board.arrivals second := by
  rw [balanced.together sameGroup, balanced.balance second]
  exact Nat.le_add_right _ _

/-- Whoever leaves in a step waited or arrived, with its whole group. -/
theorem Step.leaves_together
    [DecidableEq ι]
    [DecidableEq γ]
    {first second : ι}
    (step : Step group board after)
    (left : after.releases first ≠ board.releases first)
    (sameGroup : group second = group first) :
    board.waiting second = true ∨
      after.arrivals second = board.arrivals second + 1 := by
  cases step with
  | idle =>
      exact (left rfl).elim
  | arrive notWaiting =>
      exact (left rfl).elim
  | rendezvous notWaiting others =>
      rename_i party
      have released : group first = group party := by
        by_contra elsewhere
        exact left (by simp [Board.release, Board.arrive, elsewhere])
      by_cases same : second = party
      · subst same
        right
        simp [Board.release, Board.arrive]
      · exact Or.inl (others second same (sameGroup.trans released))

end Board

end Rendezvous
