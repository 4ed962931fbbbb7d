import Mathlib.Algebra.Order.Group.Nat
import Mathlib.Data.List.Nodup
import Mathlib.Data.List.Range
import Mathlib.Tactic.Ring

/-!
# Communication groups

The ranks of one all-to-all operation. All ranks are split into grids of equal
size, and each grid is sampled with a stride.
-/

namespace DistributedJoin

/-- The group of ranks that a rank exchanges data with. -/
structure CommunicationGroup where
  mpi_rank : Nat
  group_start : Nat
  grid_size : Nat
  stride : Nat
  deriving DecidableEq

namespace CommunicationGroup

/-- The constructor, called on a given rank. -/
def create (mpi_rank grid_size stride : Nat) : CommunicationGroup where
  mpi_rank := mpi_rank
  group_start := mpi_rank / grid_size * grid_size + mpi_rank % stride
  grid_size := grid_size
  stride := stride

/-- The number of ranks in the group. -/
def size (comm_group : CommunicationGroup) : Nat :=
  comm_group.grid_size / comm_group.stride

/-- The rank with a given index in the group. -/
def get_global_rank (comm_group : CommunicationGroup) (local_idx : Nat) : Nat :=
  comm_group.group_start + local_idx * comm_group.stride

/-- The index in the group of the rank it was created on. -/
def get_local_idx (comm_group : CommunicationGroup) : Nat :=
  (comm_group.mpi_rank - comm_group.group_start) / comm_group.stride

end CommunicationGroup

/-- A division of all ranks into groups that satisfies what the constructor of
`CommunicationGroup` asks for: the grid size divides the number of ranks and
the stride divides the grid size. -/
structure Layout (mpi_size : Nat) where
  /-- Number of consecutive ranks in a grid. -/
  grid_size : Nat
  /-- Spacing of the members of a group. -/
  stride : Nat
  mpi_size_pos : 0 < mpi_size
  grid_size_dvd : grid_size ∣ mpi_size
  stride_dvd : stride ∣ grid_size

namespace Layout

variable {mpi_size : Nat} (layout : Layout mpi_size)

/-- The group a rank belongs to. -/
def group (rank : Nat) : CommunicationGroup :=
  .create rank layout.grid_size layout.stride

/-- The number of members of every group. -/
def group_size : Nat := layout.grid_size / layout.stride

/-- The member with a given index of the group of a rank. -/
def member (rank local_idx : Nat) : Nat :=
  (layout.group rank).get_global_rank local_idx

/-- The index of a rank in its own group. -/
def local_idx (rank : Nat) : Nat := (layout.group rank).get_local_idx

@[simp] theorem group_mpi_rank (rank : Nat) :
    (layout.group rank).mpi_rank = rank := rfl

@[simp] theorem size_group (rank : Nat) :
    (layout.group rank).size = layout.group_size := rfl

@[simp] theorem get_global_rank_group (rank local_idx : Nat) :
    (layout.group rank).get_global_rank local_idx =
      layout.member rank local_idx := rfl

@[simp] theorem get_local_idx_group (rank : Nat) :
    (layout.group rank).get_local_idx = layout.local_idx rank := rfl

theorem grid_size_pos : 0 < layout.grid_size :=
  Nat.pos_of_dvd_of_pos layout.grid_size_dvd layout.mpi_size_pos

theorem stride_pos : 0 < layout.stride :=
  Nat.pos_of_dvd_of_pos layout.stride_dvd layout.grid_size_pos

theorem group_size_mul_stride : layout.group_size * layout.stride =
    layout.grid_size :=
  Nat.div_mul_cancel layout.stride_dvd

theorem group_size_pos : 0 < layout.group_size :=
  Nat.div_pos (Nat.le_of_dvd layout.grid_size_pos layout.stride_dvd)
    layout.stride_pos

/-- Coordinates of a rank: its grid, its index in the group and the group it
belongs to within the grid. -/
theorem rank_eq (rank : Nat) :
    rank = rank / layout.grid_size * layout.grid_size +
      (rank % layout.grid_size / layout.stride * layout.stride +
        rank % layout.stride) := by
  have inner : rank % layout.grid_size % layout.stride = rank % layout.stride :=
    Nat.mod_mod_of_dvd rank layout.stride_dvd
  calc
    rank = rank / layout.grid_size * layout.grid_size +
        rank % layout.grid_size := (Nat.div_add_mod' rank layout.grid_size).symm
    _ = rank / layout.grid_size * layout.grid_size +
        (rank % layout.grid_size / layout.stride * layout.stride +
          rank % layout.grid_size % layout.stride) := by
      rw [Nat.div_add_mod' (rank % layout.grid_size) layout.stride]
    _ = _ := by rw [inner]

/-- The index of a rank in its group is its position in the grid divided by the
stride. -/
theorem local_idx_eq (rank : Nat) :
    layout.local_idx rank = rank % layout.grid_size / layout.stride := by
  have decomposed : rank - (rank / layout.grid_size * layout.grid_size +
      rank % layout.stride) =
      rank % layout.grid_size / layout.stride * layout.stride := by
    have equality := layout.rank_eq rank
    omega
  change (rank - (rank / layout.grid_size * layout.grid_size +
    rank % layout.stride)) / layout.stride = _
  rw [decomposed]
  exact Nat.mul_div_cancel _ layout.stride_pos

theorem local_idx_lt (rank : Nat) :
    layout.local_idx rank < layout.group_size := by
  rw [local_idx_eq]
  apply Nat.div_lt_of_lt_mul
  rw [Nat.mul_comm, layout.group_size_mul_stride]
  exact Nat.mod_lt _ layout.grid_size_pos

/-- A rank is the member of its own group with its own index. -/
@[simp] theorem member_local_idx (rank : Nat) :
    layout.member rank (layout.local_idx rank) = rank := by
  change rank / layout.grid_size * layout.grid_size + rank % layout.stride +
    layout.local_idx rank * layout.stride = rank
  rw [local_idx_eq]
  have equality := layout.rank_eq rank
  omega

/-- The offset of a member inside its grid. -/
theorem member_offset_lt
    (rank : Nat)
    {index : Nat}
    (indexBound : index < layout.group_size) :
    rank % layout.stride + index * layout.stride < layout.grid_size := by
  calc
    rank % layout.stride + index * layout.stride <
        layout.stride + index * layout.stride :=
      Nat.add_lt_add_right (Nat.mod_lt _ layout.stride_pos) _
    _ = (index + 1) * layout.stride := by ring
    _ ≤ layout.group_size * layout.stride :=
      Nat.mul_le_mul_right _ indexBound
    _ = layout.grid_size := layout.group_size_mul_stride

theorem member_div
    (rank : Nat)
    {index : Nat}
    (indexBound : index < layout.group_size) :
    layout.member rank index / layout.grid_size = rank / layout.grid_size := by
  change (rank / layout.grid_size * layout.grid_size + rank % layout.stride +
    index * layout.stride) / layout.grid_size = _
  rw [Nat.add_assoc, Nat.mul_comm (rank / layout.grid_size),
    Nat.mul_add_div layout.grid_size_pos,
    Nat.div_eq_of_lt (layout.member_offset_lt rank indexBound), Nat.add_zero]

theorem member_mod (rank index : Nat) :
    layout.member rank index % layout.stride = rank % layout.stride := by
  obtain ⟨factor, factorEquality⟩ := layout.stride_dvd
  have rearranged : layout.member rank index =
      rank % layout.stride +
        layout.stride * (rank / layout.grid_size * factor + index) := by
    change rank / layout.grid_size * layout.grid_size + rank % layout.stride +
      index * layout.stride = _
    rw [factorEquality]
    ring
  rw [rearranged, Nat.add_mul_mod_self_left, Nat.mod_mod]

/-- Every member of a group has the same group. -/
theorem member_member
    (rank other : Nat)
    {index : Nat}
    (indexBound : index < layout.group_size) :
    layout.member (layout.member rank index) other = layout.member rank other := by
  change layout.member rank index / layout.grid_size * layout.grid_size +
    layout.member rank index % layout.stride + other * layout.stride = _
  rw [layout.member_div rank indexBound, layout.member_mod rank index]
  rfl

theorem member_injective
    (rank : Nat)
    {left right : Nat}
    (equal : layout.member rank left = layout.member rank right) :
    left = right := by
  have products : left * layout.stride = right * layout.stride :=
    Nat.add_left_cancel equal
  exact Nat.eq_of_mul_eq_mul_right layout.stride_pos products

/-- The index of a member in the group is the index it was looked up with. -/
theorem local_idx_member
    (rank : Nat)
    {index : Nat}
    (indexBound : index < layout.group_size) :
    layout.local_idx (layout.member rank index) = index := by
  apply layout.member_injective (layout.member rank index)
  rw [member_local_idx, layout.member_member rank index indexBound]

/-- Members are ranks. -/
theorem member_lt
    {rank : Nat}
    (rankBound : rank < mpi_size)
    {index : Nat}
    (indexBound : index < layout.group_size) :
    layout.member rank index < mpi_size := by
  obtain ⟨grids, sizeEquality⟩ := layout.grid_size_dvd
  have gridBound : rank / layout.grid_size < grids := by
    apply Nat.div_lt_of_lt_mul
    exact rankBound.trans_eq sizeEquality
  calc
    layout.member rank index =
        rank / layout.grid_size * layout.grid_size +
          (rank % layout.stride + index * layout.stride) :=
      Nat.add_assoc _ _ _
    _ < rank / layout.grid_size * layout.grid_size + layout.grid_size :=
      Nat.add_lt_add_left (layout.member_offset_lt rank indexBound) _
    _ = (rank / layout.grid_size + 1) * layout.grid_size := by ring
    _ ≤ grids * layout.grid_size := Nat.mul_le_mul_right _ gridBound
    _ = layout.grid_size * grids := Nat.mul_comm _ _
    _ = mpi_size := sizeEquality.symm

/-- Being in one another's group is symmetric. -/
theorem exists_member_comm (rank other : Nat) :
    (∃ index, index < layout.group_size ∧ layout.member rank index = other) ↔
      ∃ index, index < layout.group_size ∧ layout.member other index = rank := by
  constructor
  · rintro ⟨index, indexBound, rfl⟩
    refine ⟨layout.local_idx rank, layout.local_idx_lt rank, ?_⟩
    rw [layout.member_member rank _ indexBound, member_local_idx]
  · rintro ⟨index, indexBound, rfl⟩
    refine ⟨layout.local_idx other, layout.local_idx_lt other, ?_⟩
    rw [layout.member_member other _ indexBound, member_local_idx]

/-- All members of the group of a rank, in local order. -/
def members (rank : Nat) : List Nat :=
  (List.range layout.group_size).map (layout.member rank)

theorem members_nodup (rank : Nat) : (layout.members rank).Nodup :=
  List.nodup_range.map_on fun _ _ _ _ equal =>
    layout.member_injective rank equal

theorem mem_members {rank other : Nat} :
    other ∈ layout.members rank ↔
      ∃ index, index < layout.group_size ∧ layout.member rank index = other := by
  simp [members]

/-- All ranks in one group. -/
def whole (mpi_size : Nat) (mpi_size_pos : 0 < mpi_size) : Layout mpi_size where
  grid_size := mpi_size
  stride := 1
  mpi_size_pos := mpi_size_pos
  grid_size_dvd := Nat.dvd_refl mpi_size
  stride_dvd := Nat.one_dvd mpi_size

@[simp] theorem group_size_whole (mpi_size_pos : 0 < mpi_size) :
    (whole mpi_size mpi_size_pos).group_size = mpi_size :=
  Nat.div_one mpi_size

/-- In one group the index of a rank is the rank itself. -/
theorem local_idx_whole
    (mpi_size_pos : 0 < mpi_size)
    {rank : Nat}
    (rankBound : rank < mpi_size) :
    (whole mpi_size mpi_size_pos).local_idx rank = rank := by
  rw [local_idx_eq]
  change rank % mpi_size / 1 = rank
  rw [Nat.mod_eq_of_lt rankBound, Nat.div_one]

theorem member_whole
    (mpi_size_pos : 0 < mpi_size)
    {rank : Nat}
    (rankBound : rank < mpi_size)
    (local_idx : Nat) :
    (whole mpi_size mpi_size_pos).member rank local_idx = local_idx := by
  change rank / mpi_size * mpi_size + rank % 1 + local_idx * 1 = local_idx
  rw [Nat.div_eq_of_lt rankBound, Nat.mod_one]
  omega

/-- A single rank on its own. -/
def singleRank : Layout 1 := whole 1 Nat.one_pos

end Layout

end DistributedJoin
