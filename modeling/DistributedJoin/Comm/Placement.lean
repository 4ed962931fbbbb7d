import DistributedJoin.Comm.Redistribution
import Mathlib.Algebra.BigOperators.Ring.List

/-!
# Where communicated elements are placed

The elements that a rank keeps are copied or sent to itself, and all others
arrive from the other members of its group. Either way, the receive buffer of
every plan is tiled by the partitions that the members have for the rank, in the
order of the members.
-/

namespace DistributedJoin

open Device Spmd

namespace Layout

variable {n : Nat} (layout : Layout n)

/-- The only index of a rank in its own group is its local index. -/
theorem member_eq_self_iff {rank index : Nat} :
    layout.member rank index = rank ↔ index = layout.local_idx rank := by
  constructor
  · intro same
    apply layout.member_injective rank
    rw [same, member_local_idx]
  · rintro rfl
    exact layout.member_local_idx rank

/-- A group consists of the rank itself and the ranks it exchanges data with. -/
theorem cons_indices_perm (rank : Nat) :
    (layout.local_idx rank :: layout.indices false rank).Perm
      (List.range layout.group_size) := by
  have own : layout.local_idx rank ∈ List.range layout.group_size :=
    List.mem_range.mpr (layout.local_idx_lt rank)
  have others : layout.indices false rank =
      (List.range layout.group_size).erase (layout.local_idx rank) := by
    rw [List.nodup_range.erase_eq_filter]
    apply List.filter_congr
    intro index _
    rw [Bool.false_or, Bool.eq_iff_iff, bne_iff_ne, bne_iff_ne, ne_eq, ne_eq,
      layout.member_eq_self_iff]
  rw [others]
  exact (List.perm_cons_erase own).symm

end Layout

namespace GroupPlan

variable (plan : GroupPlan) {n : Nat} (layout : Layout n)

/-- Elements are received where `communicate_sizes` says, and no rank sends a
negative number of elements. -/
structure Placed : Prop where
  exchanged : plan.recv_offsets = layout.exchanged plan.send_offsets
  nonneg : ∀ rank, rank < n → ∀ index, index < layout.group_size →
    0 ≤ countAt (plan.send_offsets rank) index

/-- The number of elements that a rank gets from the member with a given
index. -/
def share (rank index : Nat) : Nat :=
  (countAt (plan.send_offsets (layout.member rank index)) (layout.local_idx rank)).toNat

variable {plan} {layout}

/-- The number of bytes that a rank gets from a member. -/
theorem length_piece (rank index : Nat) :
    (plan.piece layout rank index).length = plan.share layout rank index * plan.item_size := by
  rw [piece, length_readRange, share]
  generalize countAt (plan.send_offsets (layout.member rank index))
    (layout.local_idx rank) = count
  rcases Int.le_total 0 count with nonneg | negative
  · obtain ⟨value, rfl⟩ := Int.eq_ofNat_of_zero_le nonneg
    rw [← Nat.cast_mul, Int.toNat_natCast, Int.toNat_natCast]
  · rw [Int.toNat_of_nonpos negative, Nat.zero_mul, Int.toNat_of_nonpos]
    exact Int.mul_nonpos_of_nonpos_of_nonneg negative (Int.natCast_nonneg _)

theorem Placed.countAt_eq
    (placed : plan.Placed layout)
    {rank index : Nat}
    (rankBound : rank < n)
    (indexBound : index < layout.group_size) :
    countAt (plan.send_offsets (layout.member rank index)) (layout.local_idx rank) =
      plan.share layout rank index :=
  (Int.toNat_of_nonneg (placed.nonneg _ (layout.member_lt rankBound indexBound) _
    (layout.local_idx_lt rank))).symm

/-- The received offsets are the running totals of the shares. -/
theorem Placed.recv_offsets_eq
    (placed : plan.Placed layout)
    {rank : Nat}
    (rankBound : rank < n) :
    plan.recv_offsets rank = offsetsOf ((List.range layout.group_size).map fun index =>
      (plan.share layout rank index : Int)) := by
  rw [placed.exchanged, Layout.exchanged, Layout.incoming]
  congr 1
  apply List.map_congr_left
  intro index range
  exact placed.countAt_eq rankBound (List.mem_range.mp range)

/-- Where the elements from a member start. -/
theorem Placed.getD_recv_offsets
    (placed : plan.Placed layout)
    {rank index : Nat}
    (rankBound : rank < n)
    (indexBound : index ≤ layout.group_size) :
    (plan.recv_offsets rank).getD index 0 =
      (((List.range index).map (plan.share layout rank)).sum : Nat) := by
  rw [placed.recv_offsets_eq rankBound]
  exact getD_offsetsOf_map_range (plan.share layout rank) indexBound

/-- The number of elements that a rank gets in all. -/
def total (plan : GroupPlan) (layout : Layout n) (rank : Nat) : Nat :=
  ((List.range layout.group_size).map (plan.share layout rank)).sum

theorem Placed.getLastD_recv_offsets
    (placed : plan.Placed layout)
    {rank : Nat}
    (rankBound : rank < n) :
    (plan.recv_offsets rank).getLastD 0 = plan.total layout rank := by
  rw [placed.recv_offsets_eq rankBound]
  exact getLastD_offsetsOf_map_range (plan.share layout rank) layout.group_size

/-- The bytes of all partitions that members have for a rank. -/
def pieces (plan : GroupPlan) (layout : Layout n) (rank : Nat) : List (List Byte) :=
  (List.range layout.group_size).map (plan.piece layout rank)

theorem length_flatten_pieces (rank : Nat) :
    (plan.pieces layout rank).flatten.length =
      plan.total layout rank * plan.item_size := by
  rw [pieces, List.length_flatten, List.map_map, total, ← List.sum_map_mul_right]
  congr 1
  apply List.map_congr_left
  intro index _
  exact length_piece rank index

/-- Partitions written where the received offsets say lie side by side. -/
theorem Placed.tiles
    (placed : plan.Placed layout)
    {rank : Nat}
    (rankBound : rank < n) :
    Tiles ((List.range layout.group_size).map fun index =>
        ⟨(plan.recv_offsets rank).getD index 0 * plan.item_size,
          plan.piece layout rank index⟩)
      (plan.pieces layout rank) := by
  have places : ∀ index, index < layout.group_size →
      (plan.recv_offsets rank).getD index 0 * plan.item_size =
        (((List.range index).map fun earlier =>
          (plan.piece layout rank earlier).length).sum : Nat) := by
    intro index indexBound
    rw [placed.getD_recv_offsets rankBound (Nat.le_of_lt indexBound), ← Nat.cast_mul,
      ← List.sum_map_mul_right]
    congr 2
    apply List.map_congr_left
    intro earlier _
    exact (length_piece rank earlier).symm
  have tiles := tiles_of_filter (plan.piece layout rank) layout.group_size
    (fun _ => true) places fun _ _ kept => by contradiction
  rw [List.filter_true] at tiles
  exact tiles

end GroupPlan

namespace Redistribution

variable {n : Nat} (task : Redistribution n)

/-- What is copied for the plan of one buffer, if anything. -/
theorem writesTo_allocated
    {plan : GroupPlan}
    (member : plan ∈ task.plans)
    (rank : Nat) :
    writesTo (.plain plan.ptr) (task.allocated rank) =
      if task.explicit_copy_to_current_rank then
        [⟨(plan.recv_offsets rank).getD (task.layout.local_idx rank) 0 * plan.item_size,
          plan.piece task.layout rank (task.layout.local_idx rank)⟩]
      else [] := by
  unfold allocated
  split
  · rw [List.map_eq_flatMap, writesTo_flatMap]
    refine (flatMap_of_distinct task.distinct_plans member fun other _ different =>
      ?_).trans ?_
    · simp [writesTo, own_copy, different]
    · simp [writesTo, own_copy]
  · rfl

/-- Whether or not the own partition is copied, the receive buffer of a plan is
tiled by the partitions that the members have for the rank. -/
theorem tiles_memory
    (gpu : Gpu)
    (supported : task.Supported)
    {plan : GroupPlan}
    (member : plan ∈ task.plans)
    (placed : plan.Placed task.layout)
    {rank : Nat}
    (rankBound : rank < n) :
    Tiles (writesTo (.plain plan.ptr) (task.memory gpu rank))
      (plan.pieces task.layout rank) := by
  have wellPlanned : WellPlanned task.layout task.plans :=
    ⟨supported, task.matching_plans, task.distinct_plans⟩
  have arrived := writesTo_communicated task.layout gpu
    (!task.explicit_copy_to_current_rank) wellPlanned rankBound member
  refine (placed.tiles rankBound).of_perm ?_
  rw [memory, writesTo_append, List.filter_append, launched, arrived,
    ← List.filter_append, task.writesTo_allocated member rank, GroupPlan.deliveries]
  apply List.Perm.filter
  cases task.explicit_copy_to_current_rank with
  | false =>
      rw [Bool.not_false, task.layout.indices_true]
      exact List.Perm.refl _
  | true =>
      exact (task.layout.cons_indices_perm rank).map fun index =>
        (⟨(plan.recv_offsets rank).getD index 0 * plan.item_size,
          plan.piece task.layout rank index⟩ : Write)

/-- A receive buffer of the right size holds the partitions of the members, one
after the other. -/
theorem contents_memory
    (gpu : Gpu)
    (supported : task.Supported)
    {plan : GroupPlan}
    (member : plan ∈ task.plans)
    (placed : plan.Placed task.layout)
    {rank : Nat}
    (rankBound : rank < n) :
    contents gpu.uninitialized (writesTo (.plain plan.ptr) (task.memory gpu rank))
        (plan.total task.layout rank * plan.item_size) =
      (plan.pieces task.layout rank).flatten := by
  rw [← GroupPlan.length_flatten_pieces]
  exact (task.tiles_memory gpu supported member placed rankBound).contents_eq _

end Redistribution

end DistributedJoin
