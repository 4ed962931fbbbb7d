import DistributedJoin.Comm.Rows

/-!
# Reads and writes of a communication

A column that is not compressed is read and written by the sends and receives
of its own buffer and by the copy of the part that stays on the rank. Together
these are one read and one write for every member of the group.
-/

namespace DistributedJoin

open Device Spmd

/-- The start and the size of the elements with a given index. -/
def extentAt (offsets : List Int) (item_size index : Nat) : Extent where
  start := offsets.getD index 0 * item_size
  length := countAt offsets index * item_size

theorem accesses_append
    (access : Access)
    (buffer : Buffer)
    (first second : List (Event ranks)) :
    accesses access buffer (first ++ second) =
      accesses access buffer first ++ accesses access buffer second :=
  List.filterMap_append

theorem accesses_flatMap
    {κ : Type}
    (access : Access)
    (buffer : Buffer)
    (keys : List κ)
    (events : κ → List (Event ranks)) :
    accesses access buffer (keys.flatMap events) =
      keys.flatMap fun key => accesses access buffer (events key) :=
  List.filterMap_flatMap

@[simp] theorem accesses_groupEvents
    (access : Access)
    (buffer : Buffer)
    (group_by_batch : Bool)
    (events : List (Event ranks)) :
    accesses access buffer (groupEvents group_by_batch events) =
      accesses access buffer events := by
  unfold groupEvents
  split
  · rfl
  · rw [accesses_append]
    exact List.append_nil _

section Transfers

variable {n : Nat} (layout : Layout n)

@[simp] theorem accesses_sizesEvents
    (access : Access)
    (buffer : Buffer)
    (send_offset : Nat → List Int)
    (rank : Nat) :
    accesses access buffer (layout.sizesEvents send_offset rank) = [] := by
  unfold accesses
  rw [List.filterMap_eq_nil_iff]
  intro event member
  simp only [Layout.sizesEvents, List.mem_append, List.mem_map,
    List.mem_singleton] at member
  rcases member with (⟨_, _, rfl⟩ | ⟨_, _, rfl⟩) | rfl <;> rfl

/-- The offsets that tell where a buffer is accessed. -/
def Access.offsets (access : Access) (send_offset recv_offset : List Int) : List Int :=
  match access with
  | .read => send_offset
  | .write => recv_offset

/-- Sends and receives of a buffer access it once for every peer. -/
theorem accesses_transferEvents
    (access : Access)
    (include_current_rank : Bool)
    (buffer : Buffer)
    (data : Nat → List Byte)
    (send_offset recv_offset : Nat → List Int)
    (item_size rank : Nat) :
    accesses access buffer (layout.transferEvents include_current_rank buffer data
        send_offset recv_offset item_size rank) =
      (layout.indices include_current_rank rank).map
        (extentAt (access.offsets (send_offset rank) (recv_offset rank)) item_size) := by
  rw [layout.map_indices include_current_rank rank fun _ index =>
    extentAt (access.offsets (send_offset rank) (recv_offset rank)) item_size index]
  unfold Layout.transferEvents
  rw [accesses_append]
  unfold accesses
  rw [List.filterMap_map, List.filterMap_map]
  cases access with
  | read =>
      have posts : (layout.peers include_current_rank rank).filterMap
          (accessed .read buffer ∘ fun peer => .posted .communicator peer
            (landingAt buffer (recv_offset rank) item_size (layout.local_idx peer))) =
          [] := List.filterMap_eq_nil_iff.mpr fun _ _ => rfl
      rw [posts, List.append_nil, ← List.filterMap_eq_map]
      apply List.filterMap_congr
      intro peer _
      simp [accessed, transferAt, extentAt, Access.offsets]
  | write =>
      have sends : (layout.peers include_current_rank rank).filterMap
          (accessed .write buffer ∘ fun peer => .sent .communicator peer
            (transferAt buffer (data rank) (send_offset rank) item_size
              (layout.local_idx peer))) = [] :=
        List.filterMap_eq_nil_iff.mpr fun _ _ => rfl
      rw [sends, List.nil_append, ← List.filterMap_eq_map]
      apply List.filterMap_congr
      intro peer _
      simp [accessed, landingAt, extentAt, Access.offsets]

/-- Other buffers are not accessed. -/
theorem accesses_transferEvents_of_ne
    (access : Access)
    (include_current_rank : Bool)
    {buffer other : Buffer}
    (different : buffer ≠ other)
    (data : Nat → List Byte)
    (send_offset recv_offset : Nat → List Int)
    (item_size rank : Nat) :
    accesses access other (layout.transferEvents include_current_rank buffer data
        send_offset recv_offset item_size rank) = [] := by
  unfold accesses Layout.transferEvents
  rw [List.filterMap_eq_nil_iff]
  intro event member
  rcases List.mem_append.mp member with sent | posted
  · obtain ⟨peer, _, rfl⟩ := List.mem_map.mp sent
    cases access <;> simp [accessed, transferAt, different]
  · obtain ⟨peer, _, rfl⟩ := List.mem_map.mp posted
    cases access <;> simp [accessed, landingAt, different]

namespace GroupPlan

variable (plan : GroupPlan) (gpu : Gpu)

/-- The part of its buffer that a plan accesses for one member. -/
def extent (access : Access) (rank index : Nat) : Extent :=
  extentAt (access.offsets (plan.send_offsets rank) (plan.recv_offsets rank))
    plan.item_size index

theorem accesses_events
    (uncompressed : plan.compression_method = .none)
    (access : Access)
    (include_current_rank group_by_batch : Bool)
    (rank : Nat) :
    accesses access (.plain plan.ptr)
        (plan.events layout gpu include_current_rank group_by_batch rank) =
      (layout.indices include_current_rank rank).map (plan.extent access rank) := by
  rw [events, if_pos uncompressed, accesses_groupEvents, accesses_transferEvents]
  rfl

theorem accesses_events_of_ne
    {ptr : DevicePtr}
    (different : plan.ptr ≠ ptr)
    (access : Access)
    (include_current_rank group_by_batch : Bool)
    (rank : Nat) :
    accesses access (.plain ptr)
      (plan.events layout gpu include_current_rank group_by_batch rank) = [] := by
  unfold events
  split
  · rw [accesses_groupEvents]
    exact accesses_transferEvents_of_ne layout access include_current_rank
      (by simpa using different) _ _ _ _ _
  · rw [accesses_append, accesses_sizesEvents, accesses_groupEvents]
    exact accesses_transferEvents_of_ne layout access include_current_rank
      (by simp) _ _ _ _ _

end GroupPlan

end Transfers

namespace Redistribution

variable {n : Nat} (task : Redistribution n)

theorem accesses_createEvents
    (access : Access)
    (buffer : Buffer)
    (rank : Nat) :
    accesses access buffer (task.createEvents rank) = [] := by
  rw [createEvents, accesses_append, accesses_sizesEvents, accesses_flatMap,
    List.nil_append, List.flatMap_eq_nil_iff]
  intro icol _
  split
  · exact accesses_sizesEvents task.layout access buffer _ rank
  · rfl

theorem accesses_launchEvents
    (gpu : Gpu)
    {plan : GroupPlan}
    (member : plan ∈ task.plans)
    (uncompressed : plan.compression_method = .none)
    (access : Access)
    (rank : Nat) :
    accesses access (.plain plan.ptr) (task.launchEvents gpu rank) =
      (task.layout.indices (!task.explicit_copy_to_current_rank) rank).map
        (plan.extent access rank) := by
  rw [launchEvents, communicateEvents, accesses_groupEvents, accesses_flatMap,
    flatMap_of_distinct task.distinct_plans member fun other _ different =>
      other.accesses_events_of_ne task.layout gpu different access _ _ rank]
  exact plan.accesses_events task.layout gpu uncompressed access _ _ rank

theorem accesses_allocateEvents
    {plan : GroupPlan}
    (member : plan ∈ task.plans)
    (placed : plan.Placed task.layout)
    (access : Access)
    {rank : Nat}
    (rankBound : rank < n) :
    accesses access (.plain plan.ptr) (task.allocateEvents rank) =
      if task.explicit_copy_to_current_rank then
        [plan.extent access rank (task.layout.local_idx rank)]
      else [] := by
  have ownBound := task.layout.local_idx_lt rank
  have sent : ((plan.piece task.layout rank (task.layout.local_idx rank)).length : Int) =
      countAt (plan.send_offsets rank) (task.layout.local_idx rank) * plan.item_size := by
    have count := placed.countAt_eq rankBound ownBound
    rw [task.layout.member_local_idx] at count
    rw [GroupPlan.length_piece, Nat.cast_mul, count]
  have kept : countAt (plan.recv_offsets rank) (task.layout.local_idx rank) =
      countAt (plan.send_offsets rank) (task.layout.local_idx rank) := by
    rw [placed.exchanged]
    exact task.countAt_own plan.send_offsets rank
  unfold allocateEvents
  split
  · rw [List.map_eq_flatMap, accesses_flatMap]
    refine (flatMap_of_distinct task.distinct_plans member fun other _ different =>
      ?_).trans ?_
    · cases access <;> simp [accesses, accessed, own_copy, different]
    · cases access <;>
        simp [accesses, accessed, own_copy, GroupPlan.extent, extentAt, Access.offsets,
          sent, kept]
  · rfl

/-- A rank accesses a buffer that is not compressed once for every member of its
group, itself included. -/
theorem accesses_events
    (gpu : Gpu)
    {plan : GroupPlan}
    (member : plan ∈ task.plans)
    (uncompressed : plan.compression_method = .none)
    (placed : plan.Placed task.layout)
    (access : Access)
    {rank : Nat}
    (rankBound : rank < n) :
    (accesses access (.plain plan.ptr) (task.events gpu rank)).Perm
      ((List.range task.layout.group_size).map (plan.extent access rank)) := by
  rw [events, accesses_append, accesses_append, accesses_createEvents,
    task.accesses_allocateEvents member placed access rankBound,
    task.accesses_launchEvents gpu member uncompressed access rank, List.nil_append]
  cases task.explicit_copy_to_current_rank with
  | false =>
      rw [Bool.not_false, task.layout.indices_true]
      exact List.Perm.refl _
  | true => exact (task.layout.cons_indices_perm rank).map (plan.extent access rank)

end Redistribution

end DistributedJoin
