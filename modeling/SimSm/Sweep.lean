import SimSm.Config
import SimSm.Library.Expansion

namespace SimSm

/-!
# The configurations of a parameter sweep

A sweep expands its base configuration dimension by dimension.  The digits of a
position, in the radices of the dimensions, say which values its configuration
has.
-/

open Expansion

/-- The values that a sweep tries; an empty dimension keeps the base value. -/
structure ParameterSpace where
  schedulerPolicies : List String := []
  l1Sets : List Nat := []
  maxRegistersPerSm : List Nat := []
  maxSharedMemoryPerSm : List Nat := []
  maxWarpsPerSm : List Nat := []
  deriving Repr, DecidableEq

namespace SweepEngine

/-- Set the scheduler policy. -/
def withPolicy (config : SystemConfig) (policy : String) : SystemConfig :=
  { config with schedulerPolicy := policy }

/-- Set the number of L1 sets. -/
def withL1Sets (config : SystemConfig) (sets : Nat) : SystemConfig :=
  { config with l1Sets := sets }

/-- Set the register limit. -/
def withRegisters (config : SystemConfig) (regs : Nat) : SystemConfig :=
  { config with maxRegistersPerSm := regs }

/-- Set the shared-memory limit. -/
def withSharedMemory (config : SystemConfig) (shmem : Nat) : SystemConfig :=
  { config with maxSharedMemoryPerSm := shmem }

/-- Set the warp limit. -/
def withWarps (config : SystemConfig) (warps : Nat) : SystemConfig :=
  { config with maxWarpsPerSm := warps }

/-- Expand the base configuration by the five dimensions in order. -/
def generateConfigurations
    (base : SystemConfig)
    (space : ParameterSpace) :
    List SystemConfig :=
  let configs := [base]
  let configs := expand space.schedulerPolicies withPolicy configs
  let configs := expand space.l1Sets withL1Sets configs
  let configs := expand space.maxRegistersPerSm withRegisters configs
  let configs := expand space.maxSharedMemoryPerSm withSharedMemory configs
  expand space.maxWarpsPerSm withWarps configs

/-- One index into each dimension; those of empty dimensions are zero. -/
structure Indices where
  schedulerPolicy : Nat
  l1Sets : Nat
  maxRegistersPerSm : Nat
  maxSharedMemoryPerSm : Nat
  maxWarpsPerSm : Nat
  deriving Repr, DecidableEq

/-- Every index is one of its dimension. -/
structure Indices.Within
    (indices : Indices)
    (space : ParameterSpace) : Prop where
  schedulerPolicy :
    indices.schedulerPolicy < radix space.schedulerPolicies
  l1Sets : indices.l1Sets < radix space.l1Sets
  maxRegistersPerSm :
    indices.maxRegistersPerSm < radix space.maxRegistersPerSm
  maxSharedMemoryPerSm :
    indices.maxSharedMemoryPerSm < radix space.maxSharedMemoryPerSm
  maxWarpsPerSm : indices.maxWarpsPerSm < radix space.maxWarpsPerSm

/-- The mixed-radix digits of a position, the warp limit varying fastest. -/
def indicesAt (space : ParameterSpace) (position : Nat) : Indices :=
  let rest1 := position / radix space.maxWarpsPerSm
  let rest2 := rest1 / radix space.maxSharedMemoryPerSm
  let rest3 := rest2 / radix space.maxRegistersPerSm
  { schedulerPolicy := rest3 / radix space.l1Sets
    l1Sets := rest3 % radix space.l1Sets
    maxRegistersPerSm := rest2 % radix space.maxRegistersPerSm
    maxSharedMemoryPerSm := rest1 % radix space.maxSharedMemoryPerSm
    maxWarpsPerSm := position % radix space.maxWarpsPerSm }

/-- The position with some digits. -/
def positionOf (space : ParameterSpace) (indices : Indices) : Nat :=
  (((indices.schedulerPolicy * radix space.l1Sets + indices.l1Sets) *
            radix space.maxRegistersPerSm +
          indices.maxRegistersPerSm) *
        radix space.maxSharedMemoryPerSm +
      indices.maxSharedMemoryPerSm) *
    radix space.maxWarpsPerSm +
    indices.maxWarpsPerSm

/--
The base configuration with the values that indices select; a dimension without
values keeps the base's.
-/
def select
    (base : SystemConfig)
    (space : ParameterSpace)
    (indices : Indices) :
    SystemConfig :=
  { base with
    schedulerPolicy :=
      space.schedulerPolicies.getD indices.schedulerPolicy
        base.schedulerPolicy
    l1Sets := space.l1Sets.getD indices.l1Sets base.l1Sets
    maxRegistersPerSm :=
      space.maxRegistersPerSm.getD indices.maxRegistersPerSm
        base.maxRegistersPerSm
    maxSharedMemoryPerSm :=
      space.maxSharedMemoryPerSm.getD indices.maxSharedMemoryPerSm
        base.maxSharedMemoryPerSm
    maxWarpsPerSm :=
      space.maxWarpsPerSm.getD indices.maxWarpsPerSm base.maxWarpsPerSm }

section Space

variable {base : SystemConfig}
variable {space : ParameterSpace}

/-- The number of combinations. -/
def combinations (space : ParameterSpace) : Nat :=
  radix space.schedulerPolicies * radix space.l1Sets *
        radix space.maxRegistersPerSm *
      radix space.maxSharedMemoryPerSm *
    radix space.maxWarpsPerSm

/-- The sweep has one configuration for each combination. -/
theorem length_generateConfigurations
    (base : SystemConfig)
    (space : ParameterSpace) :
    (generateConfigurations base space).length = combinations space := by
  unfold generateConfigurations combinations
  dsimp only
  rw [length_expand, length_expand, length_expand, length_expand,
    length_expand, List.length_singleton, Nat.one_mul]

/-- The digits of a position in range are in range. -/
theorem indicesAt_within
    {position : Nat}
    (inside : position < combinations space) :
    (indicesAt space position).Within space := by
  refine
    ⟨?_, Nat.mod_lt _ (radix_pos _), Nat.mod_lt _ (radix_pos _),
      Nat.mod_lt _ (radix_pos _), Nat.mod_lt _ (radix_pos _)⟩
  unfold combinations at inside
  unfold indicesAt
  dsimp only
  rw [Nat.div_lt_iff_lt_mul (radix_pos _),
    Nat.div_lt_iff_lt_mul (radix_pos _),
    Nat.div_lt_iff_lt_mul (radix_pos _),
    Nat.div_lt_iff_lt_mul (radix_pos _)]
  exact inside

/-- A position has its digits and no other position has. -/
theorem indicesAt_iff
    {indices : Indices}
    (within : indices.Within space)
    (position : Nat) :
    indicesAt space position = indices ↔
      position = positionOf space indices := by
  unfold positionOf
  rw [← digits_iff within.maxWarpsPerSm,
    ← digits_iff within.maxSharedMemoryPerSm,
    ← digits_iff within.maxRegistersPerSm, ← digits_iff within.l1Sets]
  obtain ⟨schedulerPolicy, l1Sets, registers, sharedMemory, warps⟩ := indices
  unfold indicesAt
  simp only [Indices.mk.injEq]
  constructor
  · rintro ⟨first, second, third, fourth, fifth⟩
    exact ⟨⟨⟨⟨first, second⟩, third⟩, fourth⟩, fifth⟩
  · rintro ⟨⟨⟨⟨first, second⟩, third⟩, fourth⟩, fifth⟩
    exact ⟨first, second, third, fourth, fifth⟩

/-- Digits in range make a position in range. -/
theorem positionOf_lt
    {indices : Indices}
    (within : indices.Within space) :
    positionOf space indices < combinations space :=
  position_lt
    (position_lt
      (position_lt (position_lt within.schedulerPolicy within.l1Sets)
        within.maxRegistersPerSm)
      within.maxSharedMemoryPerSm)
    within.maxWarpsPerSm

/-- Assigning the values at the digits selects them. -/
theorem assignAt_select
    (base : SystemConfig)
    (space : ParameterSpace)
    (indices : Indices) :
    assignAt space.maxWarpsPerSm withWarps indices.maxWarpsPerSm
        (assignAt space.maxSharedMemoryPerSm withSharedMemory
          indices.maxSharedMemoryPerSm
          (assignAt space.maxRegistersPerSm withRegisters
            indices.maxRegistersPerSm
            (assignAt space.l1Sets withL1Sets indices.l1Sets
              (assignAt space.schedulerPolicies withPolicy
                indices.schedulerPolicy base)))) =
      select base space indices := by
  unfold assignAt select
  simp only [List.getD_eq_getElem?_getD]
  cases space.schedulerPolicies[indices.schedulerPolicy]? <;>
    cases space.l1Sets[indices.l1Sets]? <;>
    cases space.maxRegistersPerSm[indices.maxRegistersPerSm]? <;>
    cases space.maxSharedMemoryPerSm[indices.maxSharedMemoryPerSm]? <;>
    cases space.maxWarpsPerSm[indices.maxWarpsPerSm]? <;> rfl

/-- The configuration at a position has the values of its digits. -/
theorem getElem?_generateConfigurations
    {position : Nat}
    (inside : position < combinations space) :
    (generateConfigurations base space)[position]? =
      some (select base space (indicesAt space position)) := by
  have first := (indicesAt_within inside).schedulerPolicy
  unfold indicesAt at first
  unfold generateConfigurations
  dsimp only at first ⊢
  rw [getElem?_expand, getElem?_expand, getElem?_expand, getElem?_expand,
    getElem?_expand, Nat.div_eq_of_lt first, ← assignAt_select]
  have same := Nat.mod_eq_of_lt first
  unfold indicesAt
  simp only [List.getElem?_cons_zero, Option.map_some, same]

/--
A sweep is the Cartesian product of its dimensions: the configuration at a
position is the base with the values of its digits, and every choice of digits
is that of exactly one position.
-/
theorem generateConfigurations_product
    (base : SystemConfig)
    (space : ParameterSpace) :
    (generateConfigurations base space).length =
        max 1 space.schedulerPolicies.length * max 1 space.l1Sets.length *
              max 1 space.maxRegistersPerSm.length *
            max 1 space.maxSharedMemoryPerSm.length *
          max 1 space.maxWarpsPerSm.length ∧
      (∀ position < (generateConfigurations base space).length,
        (indicesAt space position).Within space ∧
          (generateConfigurations base space)[position]? =
            some (select base space (indicesAt space position))) ∧
      ∀ indices : Indices,
        indices.Within space →
        ∃! position,
          position < (generateConfigurations base space).length ∧
            indicesAt space position = indices := by
  have length := length_generateConfigurations base space
  refine ⟨length, fun position inside => ?_, fun indices within => ?_⟩
  · rw [length] at inside
    exact
      ⟨indicesAt_within inside, getElem?_generateConfigurations inside⟩
  · refine
      ⟨positionOf space indices,
        ⟨length ▸ positionOf_lt within,
          (indicesAt_iff within _).mpr rfl⟩, ?_⟩
    rintro position ⟨_, isIndices⟩
    exact (indicesAt_iff within position).mp isIndices

/-- Every configuration of a sweep differs from the base in the dimensions. -/
theorem eq_of_mem_generateConfigurations
    {config : SystemConfig}
    (member : config ∈ generateConfigurations base space) :
    config =
      { base with
        schedulerPolicy := config.schedulerPolicy
        l1Sets := config.l1Sets
        maxRegistersPerSm := config.maxRegistersPerSm
        maxSharedMemoryPerSm := config.maxSharedMemoryPerSm
        maxWarpsPerSm := config.maxWarpsPerSm } := by
  obtain ⟨position, found⟩ := List.mem_iff_getElem?.mp member
  obtain ⟨inside, _⟩ := List.getElem?_eq_some_iff.mp found
  rw [length_generateConfigurations] at inside
  rw [getElem?_generateConfigurations inside] at found
  cases found
  rfl

end Space

end SweepEngine

end SimSm
