import DistributedJoin.Comm.Group

/-!
# Routes through two levels of groups

Communication groups divide the ranks. The shuffle over the Infiniband domain
and the exchange over NVLink use two such divisions that cross each other: from
every rank one intermediate rank leads to every other rank.
-/

namespace DistributedJoin

namespace CommunicationGroup

/-- All ranks of a group, in local order. -/
def members (comm_group : CommunicationGroup) : List Nat :=
  (List.range comm_group.size).map comm_group.get_global_rank

end CommunicationGroup

namespace Layout

variable {mpi_size : Nat} (layout : Layout mpi_size)

/-- Every rank is in its own group. -/
theorem mem_members_self (rank : Nat) : rank ∈ layout.members rank :=
  layout.mem_members.mpr
    ⟨layout.local_idx rank, layout.local_idx_lt rank, layout.member_local_idx rank⟩

/-- The members of a group compute the same list of members. -/
theorem members_eq_of_mem
    {rank other : Nat}
    (member : other ∈ layout.members rank) :
    layout.members other = layout.members rank := by
  obtain ⟨index, indexBound, rfl⟩ := layout.mem_members.mp member
  apply List.map_congr_left
  intro position _
  exact layout.member_member rank position indexBound

theorem lt_of_mem_members
    {rank other : Nat}
    (rankBound : rank < mpi_size)
    (member : other ∈ layout.members rank) :
    other < mpi_size := by
  obtain ⟨index, indexBound, rfl⟩ := layout.mem_members.mp member
  exact layout.member_lt rankBound indexBound

/-- A rank lies in a group exactly if it is in the same grid and at the same
place between two strides. -/
theorem mem_members_iff {rank other : Nat} :
    other ∈ layout.members rank ↔
      other / layout.grid_size = rank / layout.grid_size ∧
        other % layout.stride = rank % layout.stride := by
  constructor
  · intro member
    obtain ⟨index, indexBound, rfl⟩ := layout.mem_members.mp member
    exact ⟨layout.member_div rank indexBound, layout.member_mod rank index⟩
  · rintro ⟨sameGrid, samePlace⟩
    have equal : layout.member rank (layout.local_idx other) =
        layout.member other (layout.local_idx other) := by
      change rank / layout.grid_size * layout.grid_size + rank % layout.stride + _ =
        other / layout.grid_size * layout.grid_size + other % layout.stride + _
      rw [sameGrid, samePlace]
      rfl
    rw [layout.member_local_idx] at equal
    exact layout.mem_members.mpr
      ⟨layout.local_idx other, layout.local_idx_lt other, equal⟩

/-- The groups over Infiniband: all ranks with the same place in their NVLink
domain. -/
def infiniband
    (nvlink_partition_size : Nat)
    (mpi_size_pos : 0 < mpi_size)
    (divides : nvlink_partition_size ∣ mpi_size) : Layout mpi_size where
  grid_size := mpi_size
  stride := nvlink_partition_size
  mpi_size_pos := mpi_size_pos
  grid_size_dvd := Nat.dvd_refl mpi_size
  stride_dvd := divides

/-- The groups over NVLink: the ranks of one NVLink domain. -/
def nvlink
    (nvlink_partition_size : Nat)
    (mpi_size_pos : 0 < mpi_size)
    (divides : nvlink_partition_size ∣ mpi_size) : Layout mpi_size where
  grid_size := nvlink_partition_size
  stride := 1
  mpi_size_pos := mpi_size_pos
  grid_size_dvd := divides
  stride_dvd := Nat.one_dvd _

section Levels

variable {nvlink_partition_size : Nat} {mpi_size_pos : 0 < mpi_size}
  {divides : nvlink_partition_size ∣ mpi_size}

theorem mem_infiniband
    {rank other : Nat}
    (rankBound : rank < mpi_size) :
    other ∈ (infiniband nvlink_partition_size mpi_size_pos divides).members rank ↔
      other < mpi_size ∧
        other % nvlink_partition_size = rank % nvlink_partition_size := by
  rw [mem_members_iff]
  refine and_congr_left fun _ => ?_
  change other / mpi_size = rank / mpi_size ↔ _
  rw [Nat.div_eq_of_lt rankBound, Nat.div_eq_zero_iff_lt mpi_size_pos]

theorem mem_nvlink {rank other : Nat} :
    other ∈ (nvlink nvlink_partition_size mpi_size_pos divides).members rank ↔
      other / nvlink_partition_size = rank / nvlink_partition_size := by
  rw [mem_members_iff]
  refine and_iff_left ?_
  change other % 1 = rank % 1
  rw [Nat.mod_one, Nat.mod_one]

end Levels

end Layout

/-- The rank in the Infiniband group of one rank and in the NVLink domain of
another. -/
def route (nvlink_partition_size source dest : Nat) : Nat :=
  dest / nvlink_partition_size * nvlink_partition_size + source % nvlink_partition_size

namespace Layout

variable {mpi_size nvlink_partition_size : Nat} {mpi_size_pos : 0 < mpi_size}
  {divides : nvlink_partition_size ∣ mpi_size}

theorem route_div
    (source dest : Nat)
    (positive : 0 < nvlink_partition_size) :
    route nvlink_partition_size source dest / nvlink_partition_size =
      dest / nvlink_partition_size := by
  rw [route, Nat.mul_comm, Nat.mul_add_div positive,
    Nat.div_eq_of_lt (Nat.mod_lt source positive), Nat.add_zero]

theorem route_mod (source dest : Nat) :
    route nvlink_partition_size source dest % nvlink_partition_size =
      source % nvlink_partition_size := by
  rw [route, Nat.mul_comm, Nat.mul_add_mod, Nat.mod_mod]

theorem route_lt
    (source : Nat)
    {dest : Nat}
    (divides : nvlink_partition_size ∣ mpi_size)
    (destBound : dest < mpi_size) :
    route nvlink_partition_size source dest < mpi_size := by
  have positive := Nat.pos_of_dvd_of_pos divides (Nat.zero_lt_of_lt destBound)
  apply Nat.lt_of_div_lt_div (c := nvlink_partition_size)
  rw [route_div source dest positive]
  exact Nat.div_lt_div_of_lt_of_dvd divides destBound

/-- The two groups have one rank in common. -/
theorem mem_both_iff
    {source dest between : Nat}
    (sourceBound : source < mpi_size)
    (destBound : dest < mpi_size) :
    between ∈ (infiniband nvlink_partition_size mpi_size_pos divides).members source ∧
        between ∈ (nvlink nvlink_partition_size mpi_size_pos divides).members dest ↔
      between = route nvlink_partition_size source dest := by
  have positive := Nat.pos_of_dvd_of_pos divides mpi_size_pos
  rw [mem_infiniband sourceBound, mem_nvlink]
  constructor
  · rintro ⟨⟨_, samePlace⟩, sameDomain⟩
    rw [route, ← sameDomain, ← samePlace, Nat.div_add_mod']
  · rintro rfl
    exact ⟨⟨route_lt source divides destBound, route_mod source dest⟩,
      route_div source dest positive⟩

end Layout

/-- The groups of all ranks. -/
def communication_groups (mpi_size grid_size stride : Nat) : List (List Nat) :=
  (List.range mpi_size).map fun rank =>
    (CommunicationGroup.create rank grid_size stride).members

/-- The groups divide the ranks, every rank finds itself at its own index, and
the members of a group agree on it. For every division into NVLink domains there
is one rank that a row takes on its way from one rank to another. -/
theorem communication_groups_partition
    {mpi_size grid_size stride : Nat}
    (grid_size_dvd : grid_size ∣ mpi_size)
    (stride_dvd : stride ∣ grid_size) :
    (∀ rank, rank < mpi_size →
      (CommunicationGroup.create rank grid_size stride).members.Nodup ∧
        (∀ member ∈ (CommunicationGroup.create rank grid_size stride).members,
          member < mpi_size ∧
            (CommunicationGroup.create member grid_size stride).members =
              (CommunicationGroup.create rank grid_size stride).members) ∧
        (CommunicationGroup.create rank grid_size stride).get_local_idx <
          (CommunicationGroup.create rank grid_size stride).size ∧
        (CommunicationGroup.create rank grid_size stride).get_global_rank
          (CommunicationGroup.create rank grid_size stride).get_local_idx = rank ∧
        ∃! group, group ∈ communication_groups mpi_size grid_size stride ∧
          rank ∈ group) ∧
    ∀ nvlink_partition_size, nvlink_partition_size ∣ mpi_size →
      ∀ source, source < mpi_size → ∀ dest, dest < mpi_size →
        ∃! between,
          between ∈
            (CommunicationGroup.create source mpi_size nvlink_partition_size).members ∧
          between ∈
            (CommunicationGroup.create dest nvlink_partition_size 1).members := by
  constructor
  · intro rank rankBound
    let layout : Layout mpi_size :=
      ⟨grid_size, stride, Nat.zero_lt_of_lt rankBound, grid_size_dvd, stride_dvd⟩
    refine ⟨layout.members_nodup rank, ?_, layout.local_idx_lt rank,
      layout.member_local_idx rank, layout.members rank, ?_, ?_⟩
    · intro member inGroup
      exact ⟨layout.lt_of_mem_members rankBound inGroup,
        layout.members_eq_of_mem inGroup⟩
    · exact ⟨List.mem_map.mpr ⟨rank, List.mem_range.mpr rankBound, rfl⟩,
        layout.mem_members_self rank⟩
    · rintro group ⟨inGroups, inGroup⟩
      obtain ⟨other, _, rfl⟩ := List.mem_map.mp inGroups
      exact (layout.members_eq_of_mem inGroup).symm
  · intro size divides source sourceBound dest destBound
    have positive : 0 < mpi_size := Nat.zero_lt_of_lt sourceBound
    have common : ∀ between,
        between ∈ (CommunicationGroup.create source mpi_size size).members ∧
            between ∈ (CommunicationGroup.create dest size 1).members ↔
          between = route size source dest := by
      intro between
      have meet : between ∈ (Layout.infiniband size positive divides).members source ∧
          between ∈ (Layout.nvlink size positive divides).members dest ↔ _ :=
        Layout.mem_both_iff sourceBound destBound
      exact meet
    exact ⟨_, (common _).mpr rfl, fun between both => (common between).mp both⟩

/-- Six ranks in two NVLink domains: the rank 4 is in one group with the rank 1, and what
the rank 1 sends to the rank 5 goes by it. -/
theorem communication_groups_partition_six :
    ((CommunicationGroup.create 4 6 3).members.Nodup ∧
      (∀ member ∈ (CommunicationGroup.create 4 6 3).members,
        member < 6 ∧ (CommunicationGroup.create member 6 3).members =
          (CommunicationGroup.create 4 6 3).members) ∧
      (CommunicationGroup.create 4 6 3).get_local_idx < (CommunicationGroup.create 4 6 3).size ∧
      (CommunicationGroup.create 4 6 3).get_global_rank
        (CommunicationGroup.create 4 6 3).get_local_idx = 4 ∧
      ∃! group, group ∈ communication_groups 6 6 3 ∧ 4 ∈ group) ∧
    ∃! between,
      between ∈ (CommunicationGroup.create 1 6 3).members ∧
        between ∈ (CommunicationGroup.create 5 3 1).members := by
  have partitions := communication_groups_partition (Nat.dvd_refl 6) (show 3 ∣ 6 by decide)
  exact ⟨partitions.1 4 (by decide), partitions.2 3 (by decide) 1 (by decide) 5 (by decide)⟩

end DistributedJoin
