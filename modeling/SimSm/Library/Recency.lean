import Mathlib.Data.Finset.Dedup
import Mathlib.Data.Finset.Card
import Mathlib.Data.List.Nodup

namespace Recency

/-!
# Recency of use

The distinct keys of a history, the most recently used first.  A store of
bounded capacity that replaces its least recently used key holds the first keys
of this list; a key is among them when few other keys were used since.
-/

variable {α : Type*} [DecidableEq α]

/-- Use a key: it becomes the most recent one. -/
def touch (keys : List α) (key : α) : List α :=
  key :: keys.filter (· ≠ key)

/-- The distinct keys of a history, the most recently used first. -/
def recency (history : List α) : List α :=
  history.foldl touch []

/-- One more use touches its key. -/
theorem recency_snoc
    (history : List α)
    (key : α) :
    recency (history ++ [key]) = touch (recency history) key := by
  rw [recency, List.foldl_append]
  rfl

/-- Touching keeps keys distinct. -/
theorem nodup_touch
    {keys : List α}
    (distinct : keys.Nodup)
    (key : α) :
    (touch keys key).Nodup := by
  rw [touch, List.nodup_cons]
  exact ⟨by simp, distinct.filter _⟩

/-- The keys of a history are distinct. -/
theorem nodup_recency
    (history : List α) :
    (recency history).Nodup := by
  induction history using List.reverseRecOn with
  | nil => exact List.nodup_nil
  | append_singleton history key inductionHypothesis =>
      rw [recency_snoc]
      exact nodup_touch inductionHypothesis key

/-- A key that is not there is touched by adding it. -/
theorem touch_of_not_mem
    {keys : List α}
    {key : α}
    (missing : key ∉ keys) :
    touch keys key = key :: keys := by
  rw [touch, List.filter_eq_self.mpr]
  intro other member
  rw [decide_eq_true_eq]
  rintro rfl
  exact missing member

/-- Dropping one key from the first keys leaves as many of the others. -/
theorem take_filter_take
    {keys : List α}
    (distinct : keys.Nodup)
    (key : α)
    (capacity : Nat) :
    ((keys.take (capacity + 1)).filter (· ≠ key)).take capacity =
      (keys.filter (· ≠ key)).take capacity := by
  induction keys generalizing capacity with
  | nil => rfl
  | cons head rest inductionHypothesis =>
      obtain ⟨notInRest, restDistinct⟩ := List.nodup_cons.mp distinct
      rw [List.take_succ_cons, List.filter_cons, List.filter_cons]
      by_cases same : head = key
      · subst same
        have kept {some : List α} (isPart : some ⊆ rest) :
            some.filter (· ≠ head) = some := by
          rw [List.filter_eq_self]
          intro other member
          rw [decide_eq_true_eq]
          rintro rfl
          exact notInRest (isPart member)
        rw [if_neg (by simp), if_neg (by simp), kept (List.take_subset _ _),
          kept (List.Subset.refl _), List.take_take, Nat.min_self]
      · rw [if_pos (by simpa using same), if_pos (by simpa using same)]
        cases capacity with
        | zero => rfl
        | succ capacity =>
            rw [List.take_succ_cons, List.take_succ_cons,
              inductionHypothesis restDistinct]

/-- A store of bounded capacity may forget its last keys before a use. -/
theorem touch_take
    {keys : List α}
    (distinct : keys.Nodup)
    (key : α)
    (capacity : Nat) :
    (touch (keys.take capacity) key).take capacity =
      (touch keys key).take capacity := by
  cases capacity with
  | zero => rfl
  | succ capacity =>
      rw [touch, touch, List.take_succ_cons, List.take_succ_cons,
        take_filter_take distinct]

omit [DecidableEq α] in
/-- A store of bounded capacity may forget its last keys before an arrival. -/
theorem cons_take
    (keys : List α)
    (key : α)
    (capacity : Nat) :
    (key :: keys.take capacity).take capacity =
      (key :: keys).take capacity := by
  cases capacity with
  | zero => rfl
  | succ capacity =>
      rw [List.take_succ_cons, List.take_succ_cons, List.take_take,
        Nat.min_eq_left (Nat.le_succ capacity)]

/-- The keys used since the last use of a key come before it. -/
theorem recency_since
    {earlier later : List α}
    {key : α}
    (last : key ∉ later) :
    ∃ front back,
      recency (earlier ++ key :: later) = front ++ key :: back ∧
        front.Nodup ∧ front.toFinset = later.toFinset := by
  induction later using List.reverseRecOn with
  | nil =>
      refine ⟨[], (recency earlier).filter (· ≠ key), ?_, ?_, rfl⟩
      · rw [recency_snoc]
        rfl
      · exact List.nodup_nil
  | append_singleton later next inductionHypothesis =>
      rw [List.mem_append, List.mem_singleton, not_or] at last
      obtain ⟨front, back, shape, distinct, members⟩ :=
        inductionHypothesis last.1
      have notNext : key ≠ next := last.2
      refine
        ⟨touch front next, back.filter (· ≠ next), ?_,
          nodup_touch distinct next, ?_⟩
      · rw [← List.cons_append, ← List.append_assoc, recency_snoc, shape,
          touch, List.filter_append, List.filter_cons,
          if_pos (by simpa using notNext)]
        rfl
      · ext other
        rw [touch, List.toFinset_cons, Finset.mem_insert,
          List.mem_toFinset, List.mem_filter, ← List.mem_toFinset, members,
          List.mem_toFinset, List.mem_toFinset, List.mem_append,
          List.mem_singleton, decide_eq_true_eq]
        by_cases same : other = next
        · simp [same]
        · simp [same]

omit [DecidableEq α] in
/-- Every use of a key has a last one. -/
theorem exists_last_use
    {history : List α}
    {key : α}
    (used : key ∈ history) :
    ∃ earlier later, history = earlier ++ key :: later ∧ key ∉ later := by
  obtain ⟨later, earlier, shape, last⟩ :=
    List.eq_append_cons_of_mem (List.mem_reverse.mpr used)
  refine ⟨earlier.reverse, later.reverse, ?_, by simpa using last⟩
  rw [← List.reverse_reverse history, shape]
  simp

/-- The keys of a history are those it uses. -/
theorem mem_recency
    {history : List α}
    {key : α} :
    key ∈ recency history ↔ key ∈ history := by
  induction history using List.reverseRecOn with
  | nil => rfl
  | append_singleton history next inductionHypothesis =>
      rw [recency_snoc, touch, List.mem_cons, List.mem_filter,
        inductionHypothesis, decide_eq_true_eq, List.mem_append,
        List.mem_singleton]
      by_cases same : key = next
      · simp [same]
      · simp [same]

omit [DecidableEq α] in
/-- The first occurrence of a key is among the first entries when few precede. -/
theorem mem_take_first
    {front back : List α}
    {key : α}
    {capacity : Nat}
    (first : key ∉ front) :
    key ∈ (front ++ key :: back).take capacity ↔ front.length < capacity := by
  rw [List.take_append, List.mem_append]
  rw [or_iff_right fun inFront => first (List.mem_of_mem_take inFront)]
  constructor
  · intro member
    by_contra full
    rw [Nat.sub_eq_zero_of_le (Nat.not_lt.mp full), List.take_zero]
      at member
    cases member
  · intro room
    obtain ⟨extra, isExtra⟩ := Nat.exists_eq_add_of_lt room
    have left : capacity - front.length = extra + 1 := by omega
    rw [left, List.take_succ_cons]
    exact List.mem_cons_self

/--
A key is among the most recent ones exactly when fewer other keys than these
were used since its last use.
-/
theorem mem_take_recency
    {history : List α}
    {key : α}
    {capacity : Nat} :
    key ∈ (recency history).take capacity ↔
      ∃ earlier later,
        history = earlier ++ key :: later ∧ key ∉ later ∧
          later.toFinset.card < capacity := by
  have position
      {earlier later : List α}
      (shape : history = earlier ++ key :: later)
      (last : key ∉ later) :
      key ∈ (recency history).take capacity ↔
        later.toFinset.card < capacity := by
    obtain ⟨front, back, order, distinct, members⟩ :=
      recency_since last
    have notInFront : key ∉ front := by
      rw [← List.mem_toFinset, members, List.mem_toFinset]
      exact last
    have size : later.toFinset.card = front.length := by
      rw [← members, List.toFinset_card_of_nodup distinct]
    rw [shape, order, size, mem_take_first notInFront]
  constructor
  · intro member
    have used := mem_recency.mp (List.mem_of_mem_take member)
    obtain ⟨earlier, later, shape, last⟩ := exists_last_use used
    exact ⟨earlier, later, shape, last, (position shape last).mp member⟩
  · rintro ⟨earlier, later, shape, last, few⟩
    exact (position shape last).mpr few

omit [DecidableEq α] in
/-- A key is among the last entries when fewer entries follow its last one. -/
theorem mem_take_reverse
    {history : List α}
    {key : α}
    {capacity : Nat} :
    key ∈ history.reverse.take capacity ↔
      ∃ earlier later,
        history = earlier ++ key :: later ∧ key ∉ later ∧
          later.length < capacity := by
  have position
      {earlier later : List α}
      (shape : history = earlier ++ key :: later)
      (last : key ∉ later) :
      key ∈ history.reverse.take capacity ↔ later.length < capacity := by
    have reversed :
        history.reverse = later.reverse ++ key :: earlier.reverse := by
      simp [shape]
    rw [reversed, mem_take_first (List.mem_reverse.not.mpr last),
      List.length_reverse]
  constructor
  · intro member
    have used := List.mem_reverse.mp (List.mem_of_mem_take member)
    obtain ⟨earlier, later, shape, last⟩ := exists_last_use used
    exact ⟨earlier, later, shape, last, (position shape last).mp member⟩
  · rintro ⟨earlier, later, shape, last, few⟩
    exact (position shape last).mpr few

end Recency
