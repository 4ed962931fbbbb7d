import DistributedJoin.Device.Integers
import Mathlib.Tactic.Ring

/-!
# Message tags

UCX matches a receive with messages of the same tag, wherever they come from.
The communicators therefore pack the user tag and the rank of the sender into one
number.
-/

namespace DistributedJoin

/-- Conversion to the tag type of UCX, an unsigned integer of 64 bits. -/
def toUcpTag (value : Int) : Int := value % 2 ^ 64

/-- Sign extension keeps different numbers apart. -/
theorem toUcpTag_toInt_eq_iff (first second : Int) :
    toUcpTag (toInt first) = toUcpTag (toInt second) ↔ toInt first = toInt second := by
  refine ⟨fun equal => ?_, congrArg toUcpTag⟩
  have firstBounds := toInt_bounds first
  have secondBounds := toInt_bounds second
  unfold toUcpTag at equal
  omega

namespace UCXCommunicator

/-- The tag that `send` passes to UCX on a rank, and that `recv` passes for a
source. -/
def comm_tag (mpi_size tag rank : Int) : Int :=
  toUcpTag (toInt (toInt (tag * mpi_size) + rank))

theorem comm_tag_eq_iff (mpi_size firstTag firstRank secondTag secondRank : Int) :
    comm_tag mpi_size firstTag firstRank = comm_tag mpi_size secondTag secondRank ↔
      (2 ^ 32 : Int) ∣
        (firstTag * mpi_size + firstRank) - (secondTag * mpi_size + secondRank) := by
  have wrapped : ∀ tag rank : Int,
      toInt (toInt (tag * mpi_size) + rank) = toInt (tag * mpi_size + rank) :=
    fun tag rank => Int.bmod_add_bmod
  unfold comm_tag
  rw [toUcpTag_toInt_eq_iff, wrapped, wrapped, toInt_eq_iff]

/-- The tags of a range of user tags, `-1` for the groups among them, and all ranks
can be told apart. -/
def TagsSeparate (mpi_size first last : Int) : Prop :=
  ∀ firstTag secondTag firstRank secondRank : Int,
    first ≤ firstTag → firstTag ≤ last → first ≤ secondTag → secondTag ≤ last →
    0 ≤ firstRank → firstRank < mpi_size → 0 ≤ secondRank → secondRank < mpi_size →
    comm_tag mpi_size firstTag firstRank = comm_tag mpi_size secondTag secondRank →
      firstTag = secondTag ∧ firstRank = secondRank

/-- A number has one representation by a multiple of the number of ranks and a
rank. -/
theorem eq_of_mul_add_eq
    {mpi_size firstTag firstRank secondTag secondRank : Int}
    (firstNonneg : 0 ≤ firstRank)
    (firstBound : firstRank < mpi_size)
    (secondNonneg : 0 ≤ secondRank)
    (secondBound : secondRank < mpi_size)
    (equal : firstTag * mpi_size + firstRank = secondTag * mpi_size + secondRank) :
    firstTag = secondTag ∧ firstRank = secondRank := by
  have positive : mpi_size ≠ 0 := by omega
  have quotient : ∀ tag rank : Int, 0 ≤ rank → rank < mpi_size →
      (tag * mpi_size + rank) / mpi_size = tag := by
    intro tag rank nonneg bound
    rw [Int.add_comm, Int.add_mul_ediv_right _ _ positive,
      Int.ediv_eq_zero_of_lt nonneg bound, Int.zero_add]
  have sameTag : firstTag = secondTag := by
    rw [← quotient firstTag firstRank firstNonneg firstBound, equal,
      quotient secondTag secondRank secondNonneg secondBound]
  subst sameTag
  exact ⟨rfl, by omega⟩

/-- The tags of a range can be told apart if and only if there is room for all of
them, combined with all ranks, in an `int`. -/
theorem tagsSeparate_iff
    {mpi_size first last : Int}
    (mpi_size_pos : 1 ≤ mpi_size)
    (ordered : first ≤ last) :
    TagsSeparate mpi_size first last ↔ (last - first + 1) * mpi_size ≤ 2 ^ 32 := by
  constructor
  · intro separate
    by_contra crowded
    let offset : Int := 2 ^ 32 / mpi_size
    let rank : Int := 2 ^ 32 % mpi_size
    have decomposed : offset * mpi_size + rank = 2 ^ 32 := Int.ediv_mul_add_emod _ _
    have offsetNonneg : 0 ≤ offset := Int.ediv_nonneg (by decide) (by omega)
    have rankNonneg : 0 ≤ rank := Int.emod_nonneg _ (by omega)
    have rankBound : rank < mpi_size := Int.emod_lt_of_pos _ (by omega)
    have inside : offset < last - first + 1 :=
      Int.ediv_lt_of_lt_mul (by omega) (not_le.mp crowded)
    have collision : comm_tag mpi_size (first + offset) rank =
        comm_tag mpi_size first 0 := by
      rw [comm_tag_eq_iff]
      have difference : (first + offset) * mpi_size + rank - (first * mpi_size + 0) =
          2 ^ 32 := by
        rw [← decomposed]
        ring
      rw [difference]
    obtain ⟨sameTag, sameRank⟩ := separate (first + offset) first rank 0 (by omega)
      (by omega) (Int.le_refl _) ordered rankNonneg rankBound (Int.le_refl _) (by omega)
      collision
    have nothing : offset = 0 := by omega
    rw [nothing, sameRank, Int.zero_mul] at decomposed
    exact absurd decomposed (by decide)
  · intro room firstTag secondTag firstRank secondRank firstAbove firstBelow secondAbove
      secondBelow firstNonneg firstBound secondNonneg secondBound equal
    apply eq_of_mul_add_eq firstNonneg firstBound secondNonneg secondBound
    rw [comm_tag_eq_iff] at equal
    have upper : (firstTag - secondTag) * mpi_size ≤ (last - first) * mpi_size :=
      Int.mul_le_mul_of_nonneg_right (by omega) (by omega)
    have lower : (secondTag - firstTag) * mpi_size ≤ (last - first) * mpi_size :=
      Int.mul_le_mul_of_nonneg_right (by omega) (by omega)
    have small : |firstTag * mpi_size + firstRank - (secondTag * mpi_size + secondRank)| <
        2 ^ 32 := by
      rw [abs_lt]
      constructor <;> linarith
    exact Int.sub_eq_zero.mp (Int.eq_zero_of_abs_lt_dvd equal small)

/-- Two ranks can use half of all tags. -/
theorem tagsSeparate_two : TagsSeparate 2 (-1) (2 ^ 31 - 2) :=
  (tagsSeparate_iff (by decide) (by decide)).mpr (by decide)

/-- With two ranks, the largest tag cannot be told from the tag of groups. -/
theorem tags_collide_two :
    comm_tag 2 (2 ^ 31 - 1) 0 = comm_tag 2 (-1) 0 ∧
      ¬ TagsSeparate 2 (-2 ^ 31) (2 ^ 31 - 1) := by
  have collision : comm_tag 2 (2 ^ 31 - 1) 0 = comm_tag 2 (-1) 0 := by decide
  refine ⟨collision, fun separate => ?_⟩
  have same := separate (2 ^ 31 - 1) (-1) 0 0 (by decide) (by decide) (by decide)
    (by decide) (by decide) (by decide) (by decide) (by decide) collision
  exact absurd same.1 (by decide)

end UCXCommunicator

end DistributedJoin
