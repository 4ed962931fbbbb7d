import Mathlib.Data.Nat.Sqrt
import Mathlib.Order.Bounds.Basic
import Mathlib.Order.Interval.Set.Defs

/-!
# The size of NVLink domains

The join first looks for the number of ranks that exchange data over NVLink. The
search over the divisors of the number of ranks begins at its square root, so it
misses a divisor beyond it.
-/

namespace DistributedJoin

/-- The square root, rounded up. -/
def ceil_sqrt (value : Nat) : Nat :=
  if value.sqrt * value.sqrt = value then value.sqrt else value.sqrt + 1

theorem ceil_sqrt_pos {value : Nat} (positive : 0 < value) : 0 < ceil_sqrt value := by
  unfold ceil_sqrt
  split
  · exact Nat.sqrt_pos.mpr positive
  · exact Nat.succ_pos _

/-- The loop over the candidates, from the given size down. -/
def largest_size_below (mpi_size : Nat) (nvlink_domain_size : Int) : Nat → Nat
  | 0 => 1
  | size + 1 =>
      if mpi_size % (size + 1) = 0 ∧ ((size + 1 : Nat) : Int) ≤ nvlink_domain_size then
        size + 1
      else largest_size_below mpi_size nvlink_domain_size size

/-- The number of partitions in the NVLink communication stage. -/
def get_nvl_partition_size (mpi_size : Nat) (nvlink_domain_size : Int) : Nat :=
  if nvlink_domain_size ≥ mpi_size then mpi_size
  else largest_size_below mpi_size nvlink_domain_size (ceil_sqrt mpi_size)

/-- The sizes that NVLink domains can have: they divide the number of ranks and
are not larger than a domain. -/
def nvl_partition_sizes (mpi_size : Nat) (nvlink_domain_size : Int) : Set Nat :=
  {size | size ∣ mpi_size ∧ (size : Int) ≤ nvlink_domain_size}

section Search

variable {mpi_size : Nat} {nvlink_domain_size : Int}

theorem largest_size_below_dvd (bound : Nat) :
    largest_size_below mpi_size nvlink_domain_size bound ∣ mpi_size := by
  induction bound with
  | zero => exact Nat.one_dvd mpi_size
  | succ size inductionHypothesis =>
      unfold largest_size_below
      split
      · rename_i found
        exact Nat.dvd_of_mod_eq_zero found.1
      · exact inductionHypothesis

/-- The search finds the largest size up to where it begins. -/
theorem largest_size_below_isGreatest
    {bound : Nat}
    (positive : 0 < bound)
    (domain_pos : 1 ≤ nvlink_domain_size) :
    IsGreatest (nvl_partition_sizes mpi_size nvlink_domain_size ∩ Set.Iic bound)
      (largest_size_below mpi_size nvlink_domain_size bound) := by
  induction bound with
  | zero => contradiction
  | succ size inductionHypothesis =>
      unfold largest_size_below
      split
      · rename_i found
        exact ⟨⟨⟨Nat.dvd_of_mod_eq_zero found.1, found.2⟩, Nat.le_refl _⟩,
          fun candidate member => member.2⟩
      · rename_i missing
        rcases Nat.eq_zero_or_pos size with rfl | sizePositive
        · exact absurd ⟨Nat.mod_one mpi_size, domain_pos⟩ missing
        · obtain ⟨⟨member, bounded⟩, greatest⟩ := inductionHypothesis sizePositive
          refine ⟨⟨member, Nat.le_succ_of_le bounded⟩, ?_⟩
          rintro candidate ⟨candidateMember, candidateBound⟩
          refine greatest ⟨candidateMember, Nat.le_of_lt_succ ?_⟩
          refine Nat.lt_of_le_of_ne candidateBound fun same => missing ?_
          subst same
          exact ⟨Nat.mod_eq_zero_of_dvd candidateMember.1, candidateMember.2⟩

end Search

/-- The result divides the number of ranks, whatever the domain size is. -/
theorem get_nvl_partition_size_dvd (mpi_size : Nat) (nvlink_domain_size : Int) :
    get_nvl_partition_size mpi_size nvlink_domain_size ∣ mpi_size := by
  unfold get_nvl_partition_size
  split
  · exact Nat.dvd_refl mpi_size
  · exact largest_size_below_dvd _

/-- The result is the largest admissible size if and only if a domain has room for
all ranks or no admissible size lies beyond the square root, where the search
begins. -/
theorem get_nvl_partition_size_isGreatest_iff
    {mpi_size : Nat}
    {nvlink_domain_size : Int}
    (mpi_size_pos : 1 ≤ mpi_size)
    (domain_pos : 1 ≤ nvlink_domain_size) :
    IsGreatest (nvl_partition_sizes mpi_size nvlink_domain_size)
        (get_nvl_partition_size mpi_size nvlink_domain_size) ↔
      nvlink_domain_size ≥ mpi_size ∨
        ∀ size : Nat, size ∣ mpi_size → (size : Int) ≤ nvlink_domain_size →
          size ≤ ceil_sqrt mpi_size := by
  have rootPositive := ceil_sqrt_pos mpi_size_pos
  by_cases room : nvlink_domain_size ≥ mpi_size
  · refine iff_of_true ?_ (.inl room)
    rw [get_nvl_partition_size, if_pos room]
    exact ⟨⟨Nat.dvd_refl mpi_size, room⟩, fun size member =>
      Nat.le_of_dvd mpi_size_pos member.1⟩
  · rw [get_nvl_partition_size, if_neg room, or_iff_right room]
    have found : IsGreatest (nvl_partition_sizes mpi_size nvlink_domain_size ∩
        Set.Iic (ceil_sqrt mpi_size)) _ :=
      largest_size_below_isGreatest rootPositive domain_pos
    obtain ⟨⟨member, bounded⟩, greatest⟩ := found
    constructor
    · intro isGreatest size divides fits
      exact (isGreatest.2 ⟨divides, fits⟩).trans bounded
    · intro inside
      exact ⟨member, fun size candidate =>
        greatest ⟨candidate, inside size candidate.1 candidate.2⟩⟩

/-- Eight ranks in domains of two. -/
theorem get_nvl_partition_size_isGreatest_two :
    IsGreatest (nvl_partition_sizes 8 2) (get_nvl_partition_size 8 2) :=
  (get_nvl_partition_size_isGreatest_iff (by decide) (by decide)).mpr
    (.inr fun size _ fits => (Int.ofNat_le.mp fits).trans (by decide +kernel))

/-- Eight ranks with domains of four use domains of two. -/
theorem get_nvl_partition_size_misses_four :
    ¬ IsGreatest (nvl_partition_sizes 8 4) (get_nvl_partition_size 8 4) := by
  intro isGreatest
  have bounded : 4 ≤ get_nvl_partition_size 8 4 :=
    isGreatest.2 ⟨by decide, by decide⟩
  revert bounded
  decide +kernel

end DistributedJoin
