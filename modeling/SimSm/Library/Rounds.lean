import Mathlib.Combinatorics.Enumerative.DoubleCounting
import Mathlib.Data.Finset.Lattice.Fold
import Mathlib.Order.Bounds.Basic
import Mathlib.Order.Lattice.Nat

/-!
# Rounds of items of different classes

Items are served in rounds, no two of one class in the same round.  The fullest
class needs as many rounds as it has items, and that many are enough.
-/

namespace Rounds

variable {α β : Type}

/-- Every item is in one of the rounds, and no round has two of one class. -/
structure Serves
    (items : Finset α)
    (classOf : α → β)
    (rounds : List (Finset α)) : Prop where
  covers : ∀ item, item ∈ items ↔ ∃ round ∈ rounds, item ∈ round
  disjoint : rounds.Pairwise Disjoint
  conflictFree :
    ∀ round ∈ rounds,
      ∀ first ∈ round,
        ∀ second ∈ round,
          classOf first = classOf second → first = second

section Classes

variable [DecidableEq β]
variable (items : Finset α)
variable (classOf : α → β)

/-- The items of one class. -/
def ofClass (key : β) : Finset α :=
  items.filter fun item => classOf item = key

/-- The number of items of the fullest class. -/
def fullest : Nat :=
  items.sup fun item => (ofClass items classOf (classOf item)).card

theorem mem_ofClass
    {key : β}
    {item : α} :
    item ∈ ofClass items classOf key ↔
      item ∈ items ∧ classOf item = key :=
  Finset.mem_filter

/-- No class is fuller than the fullest one. -/
theorem card_ofClass_le
    {item : α}
    (member : item ∈ items) :
    (ofClass items classOf (classOf item)).card ≤ fullest items classOf :=
  Finset.le_sup
    (f := fun item => (ofClass items classOf (classOf item)).card) member

/-- More items make the fullest class fuller. -/
theorem fullest_mono
    {items more : Finset α}
    (subset : items ⊆ more) :
    fullest items classOf ≤ fullest more classOf := by
  unfold fullest
  refine Finset.sup_le fun item member => ?_
  have fuller :
      ofClass items classOf (classOf item) ⊆
        ofClass more classOf (classOf item) :=
    Finset.filter_subset_filter _ subset
  exact
    (Finset.card_le_card fuller).trans
      (card_ofClass_le more classOf (subset member))

/-- The items of the fullest class are all in different rounds. -/
theorem fullest_le_length
    [DecidableEq α]
    {rounds : List (Finset α)}
    (serves : Serves items classOf rounds) :
    fullest items classOf ≤ rounds.length := by
  refine Finset.sup_le fun item member => ?_
  refine le_trans ?_ (List.toFinset_card_le rounds)
  refine
    Finset.card_le_card_of_forall_subsingleton
      (fun item round => item ∈ round) ?_ ?_
  · intro other ofSame
    obtain ⟨isItem, _⟩ := (mem_ofClass items classOf).mp ofSame
    obtain ⟨round, isRound, inRound⟩ := (serves.covers other).mp isItem
    exact ⟨round, List.mem_toFinset.mpr isRound, inRound⟩
  · rintro round isRound first ⟨ofFirst, inFirst⟩ second ⟨ofSecond, inSecond⟩
    obtain ⟨_, firstClass⟩ := (mem_ofClass items classOf).mp ofFirst
    obtain ⟨_, secondClass⟩ := (mem_ofClass items classOf).mp ofSecond
    exact
      serves.conflictFree round (List.mem_toFinset.mp isRound) first inFirst
        second inSecond (firstClass.trans secondClass.symm)

/-! ## A schedule by ranks -/

variable [LinearOrder α]

/-- The smaller items of the class of an item. -/
def smaller (item : α) : Finset α :=
  (ofClass items classOf (classOf item)).filter fun other => other < item

/-- The round of an item: the number of smaller items of its class. -/
def rank (item : α) : Nat :=
  (smaller items classOf item).card

/-- Each round takes the items of one rank. -/
def byRank : List (Finset α) :=
  (List.range (fullest items classOf)).map fun number =>
    items.filter fun item => rank items classOf item = number

/-- Items have smaller ranks than the fullest class has items. -/
theorem rank_lt
    {item : α}
    (member : item ∈ items) :
    rank items classOf item < fullest items classOf := by
  refine lt_of_lt_of_le ?_ (card_ofClass_le items classOf member)
  apply Finset.card_lt_card
  refine Finset.ssubset_iff_subset_ne.mpr ⟨Finset.filter_subset _ _, ?_⟩
  intro same
  have isItem : item ∈ ofClass items classOf (classOf item) :=
    (mem_ofClass items classOf).mpr ⟨member, rfl⟩
  rw [← same] at isItem
  exact lt_irrefl item (Finset.mem_filter.mp isItem).2

/-- Of two items of one class the smaller one has the smaller rank. -/
theorem rank_lt_rank
    {first second : α}
    (member : first ∈ items)
    (sameClass : classOf first = classOf second)
    (less : first < second) :
    rank items classOf first < rank items classOf second := by
  apply Finset.card_lt_card
  refine Finset.ssubset_iff_of_subset ?_ |>.mpr ⟨first, ?_, ?_⟩
  · intro other isSmaller
    obtain ⟨ofFirst, below⟩ := Finset.mem_filter.mp isSmaller
    rw [sameClass] at ofFirst
    exact Finset.mem_filter.mpr ⟨ofFirst, below.trans less⟩
  · exact
      Finset.mem_filter.mpr
        ⟨(mem_ofClass items classOf).mpr ⟨member, sameClass⟩, less⟩
  · intro isSmaller
    exact lt_irrefl first (Finset.mem_filter.mp isSmaller).2

/-- The rounds by rank serve the items. -/
theorem byRank_serves :
    Serves items classOf (byRank items classOf) := by
  have mem_round
      {round : Finset α}
      (isRound : round ∈ byRank items classOf) :
      ∃ number,
        ∀ item,
          item ∈ round ↔
            item ∈ items ∧ rank items classOf item = number := by
    obtain ⟨number, _, rfl⟩ := List.mem_map.mp isRound
    exact ⟨number, fun item => Finset.mem_filter⟩
  refine ⟨fun item => ⟨fun member => ?_, ?_⟩, ?_, ?_⟩
  · exact
      ⟨_,
        List.mem_map.mpr
          ⟨rank items classOf item,
            List.mem_range.mpr (rank_lt items classOf member), rfl⟩,
        Finset.mem_filter.mpr ⟨member, rfl⟩⟩
  · rintro ⟨round, isRound, inRound⟩
    obtain ⟨number, mem⟩ := mem_round isRound
    exact ((mem item).mp inRound).1
  · refine List.pairwise_map.mpr (List.nodup_range.imp ?_)
    intro first second different
    rw [Finset.disjoint_filter]
    intro item _ isFirst isSecond
    exact different (isFirst.symm.trans isSecond)
  · intro round isRound first inFirst second inSecond sameClass
    obtain ⟨number, mem⟩ := mem_round isRound
    obtain ⟨firstItem, firstRank⟩ := (mem first).mp inFirst
    obtain ⟨secondItem, secondRank⟩ := (mem second).mp inSecond
    rcases lt_trichotomy first second with less | same | greater
    · have ranks :=
        rank_lt_rank items classOf firstItem sameClass less
      omega
    · exact same
    · have ranks :=
        rank_lt_rank items classOf secondItem sameClass.symm greater
      omega

/-- The fullest class decides the least number of rounds. -/
theorem isLeast_fullest :
    IsLeast
      {count |
        ∃ rounds, Serves items classOf rounds ∧ rounds.length = count}
      (fullest items classOf) := by
  constructor
  · refine ⟨byRank items classOf, byRank_serves items classOf, ?_⟩
    rw [byRank, List.length_map, List.length_range]
  · rintro count ⟨rounds, serves, rfl⟩
    exact fullest_le_length items classOf serves

end Classes

end Rounds
