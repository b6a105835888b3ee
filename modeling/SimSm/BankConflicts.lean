import SimSm.Library.Rounds
import SimSm.MemorySystem

namespace SimSm

/-!
# Bank conflicts

The penalty that shared memory charges for bank conflicts is what an optimal
schedule needs: the words of a warp access are served in rounds, in each of
which every bank serves one word.
-/

namespace SharedMemory

/-- The distinct words of an address vector. -/
def words (addresses : List Nat) : Finset Nat :=
  (addresses.map (· / 4)).toFinset

/-- The bank of a word. -/
def bankOf (memory : SharedMemory) (word : Nat) : Nat :=
  word % memory.numBanks

/-- Words of some addresses are words of more addresses. -/
theorem words_subset
    {addresses more : List Nat}
    (subset : addresses ⊆ more) :
    words addresses ⊆ words more := by
  intro word member
  obtain ⟨address, isAddress, rfl⟩ :=
    List.mem_map.mp (List.mem_toFinset.mp member)
  exact
    List.mem_toFinset.mpr
      (List.mem_map.mpr ⟨address, subset isAddress, rfl⟩)

/-- The words collected for a bank are those of its class. -/
theorem length_bankWords
    (memory : SharedMemory)
    (addresses : List Nat)
    (bank : Nat) :
    (memory.bankWords addresses bank).length =
      (Rounds.ofClass (words addresses) memory.bankOf bank).card := by
  rw [bankWords, ← List.card_toFinset, List.toFinset_filter]
  congr 1
  ext word
  rw [Rounds.mem_ofClass]
  simp [words, bankOf]

/-- A maximum taken along a list is the supremum of its entries. -/
theorem foldl_max_eq_sup
    {α : Type}
    [DecidableEq α]
    (items : List α)
    (size : α → Nat) :
    (items.map size).foldl max 0 = items.toFinset.sup size := by
  have general
      (start : Nat) :
      (items.map size).foldl max start =
        max start (items.toFinset.sup size) := by
    induction items generalizing start with
    | nil => simp
    | cons item rest inductionHypothesis =>
        rw [List.map_cons, List.foldl_cons, inductionHypothesis,
          List.toFinset_cons, Finset.sup_insert, max_assoc]
  rw [general, Nat.zero_max]

section Penalty

variable {memory : SharedMemory}
variable {addresses : List Nat}

/-- The penalty is one less than the number of words of the fullest bank. -/
theorem computeBankConflicts_add_one
    (nonempty : addresses ≠ [])
    (positive : 0 < memory.numBanks) :
    memory.computeBankConflicts addresses + 1 =
      Rounds.fullest (words addresses) memory.bankOf := by
  have maxUnique :
      (addresses.map fun address =>
          (memory.bankWords addresses
            (address / 4 % memory.numBanks)).length).foldl max 0 =
        Rounds.fullest (words addresses) memory.bankOf := by
    have perWord :
        (addresses.map fun address =>
            (memory.bankWords addresses
              (address / 4 % memory.numBanks)).length) =
          (addresses.map (· / 4)).map fun word =>
            (Rounds.ofClass (words addresses) memory.bankOf
              (memory.bankOf word)).card := by
      rw [List.map_map]
      exact List.map_congr_left fun address _ => length_bankWords _ _ _
    rw [perWord, foldl_max_eq_sup]
    rfl
  have charged :
      ¬ (addresses.isEmpty = true ∨ memory.numBanks = 0) := by
    rw [List.isEmpty_iff]
    rintro (empty | noBanks)
    · exact nonempty empty
    · exact Nat.ne_of_gt positive noBanks
  obtain ⟨address, isAddress⟩ := List.exists_mem_of_ne_nil _ nonempty
  have isWord : address / 4 ∈ words addresses :=
    List.mem_toFinset.mpr (List.mem_map_of_mem isAddress)
  have some : 0 < Rounds.fullest (words addresses) memory.bankOf :=
    Nat.zero_lt_of_lt (Rounds.rank_lt _ memory.bankOf isWord)
  rw [computeBankConflicts, if_neg charged]
  dsimp only
  rw [maxUnique, if_pos some]
  omega

/-- More addresses do not make the penalty smaller. -/
theorem computeBankConflicts_mono
    (positive : 0 < memory.numBanks)
    {more : List Nat}
    (subset : addresses ⊆ more) :
    memory.computeBankConflicts addresses ≤
      memory.computeBankConflicts more := by
  by_cases nonempty : addresses = []
  · subst nonempty
    exact Nat.zero_le _
  · have moreNonempty : more ≠ [] := by
      rintro rfl
      exact nonempty (List.subset_nil.mp subset)
    have penalty := computeBankConflicts_add_one nonempty positive
    have morePenalty := computeBankConflicts_add_one moreNonempty positive
    have fuller :=
      Rounds.fullest_mono memory.bankOf (words_subset subset)
    omega

/--
One more than the penalty is the least number of rounds in which the banks can
serve the distinct words, each bank one word a round.
-/
theorem computeBankConflicts_optimal
    (nonempty : addresses ≠ [])
    (positive : 0 < memory.numBanks) :
    IsLeast
        {count |
          ∃ rounds,
            Rounds.Serves (words addresses) memory.bankOf rounds ∧
              rounds.length = count}
        (memory.computeBankConflicts addresses + 1) ∧
      (∀ others : List Nat,
        (∀ address, address ∈ others ↔ address ∈ addresses) →
        memory.computeBankConflicts others =
          memory.computeBankConflicts addresses) ∧
      ∀ more : List Nat,
        addresses ⊆ more →
        memory.computeBankConflicts addresses ≤
          memory.computeBankConflicts more := by
  refine
    ⟨?_, fun others same => ?_,
      fun more subset => computeBankConflicts_mono positive subset⟩
  · rw [computeBankConflicts_add_one nonempty positive]
    exact Rounds.isLeast_fullest _ _
  · exact
      Nat.le_antisymm
        (computeBankConflicts_mono positive fun address =>
          (same address).mp)
        (computeBankConflicts_mono positive fun address =>
          (same address).mpr)

/-- Three addresses of two words in one of two banks need two rounds. -/
theorem computeBankConflicts_optimal_twoWords :
    IsLeast
      {count |
        ∃ rounds,
          Rounds.Serves (words [0, 8, 1]) (SharedMemory.new 16 2).bankOf
              rounds ∧
            rounds.length = count}
      2 :=
  (@computeBankConflicts_optimal (SharedMemory.new 16 2) [0, 8, 1]
    (List.cons_ne_nil _ _) (by decide)).1

end Penalty

end SharedMemory

end SimSm
