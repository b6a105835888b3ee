import Mathlib.Data.List.Basic

/-!
# Ranges in chunks

A range cut into chunks of one size, the last one possibly shorter, is the range
again when its chunks are concatenated.
-/

namespace Chunks

/-- The numbers of a chunk. -/
def chunk (size total number : Nat) : List Nat :=
  (List.range (min size (total - number * size))).map
    fun offset => number * size + offset

/-- The number of chunks that it takes. -/
def count (size total : Nat) : Nat :=
  (total + size - 1) / size

/-- The first chunks are an initial part of the range. -/
theorem flatMap_chunk
    (size total number : Nat) :
    (List.range number).flatMap (chunk size total) =
      List.range (min total (number * size)) := by
  induction number with
  | zero => simp
  | succ number inductionHypothesis =>
      rw [List.range_succ, List.flatMap_append, inductionHypothesis,
        List.flatMap_singleton, chunk, Nat.succ_mul]
      rcases Nat.le_total total (number * size) with done | more
      · have empty : min size (total - number * size) = 0 := by omega
        have same :
            min total (number * size + size) =
              min total (number * size) := by
          omega
        rw [empty, same, List.range_zero, List.map_nil, List.append_nil]
      · have grows :
            min total (number * size + size) =
              number * size + min size (total - number * size) := by
          omega
        rw [grows, Nat.min_eq_right more, List.range_add]

variable {size : Nat}

/-- So many chunks reach the end of the range. -/
theorem le_count_mul
    (positive : 0 < size)
    (total : Nat) :
    total ≤ count size total * size := by
  have below : total + size - 1 < (count size total + 1) * size :=
    (Nat.div_lt_iff_lt_mul positive).mp (Nat.lt_succ_self _)
  rw [Nat.succ_mul] at below
  omega

/-- All chunks together are the range. -/
theorem flatMap_count
    (positive : 0 < size)
    (total : Nat) :
    (List.range (count size total)).flatMap (chunk size total) =
      List.range total := by
  rw [flatMap_chunk, Nat.min_eq_left (le_count_mul positive total)]

/-- A chunk before the last one is full, and none is empty. -/
theorem chunk_size
    (positive : 0 < size)
    {total number : Nat}
    (inside : number < count size total) :
    0 < min size (total - number * size) ∧
      (number + 1 < count size total →
        min size (total - number * size) = size) := by
  have reaches
      {other : Nat}
      (isChunk : other < count size total) :
      other * size < total := by
    have started : (other + 1) * size ≤ total + size - 1 :=
      (Nat.le_div_iff_mul_le positive).mp isChunk
    rw [Nat.succ_mul] at started
    omega
  have here := reaches inside
  refine ⟨by omega, fun notLast => ?_⟩
  have next := reaches notLast
  rw [Nat.succ_mul] at next
  omega

end Chunks
