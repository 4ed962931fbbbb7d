import DistributedJoin.Comm.Group
import DistributedJoin.Comm.Interface
import Mathlib.Algebra.Order.BigOperators.Group.List

/-!
# Exchanging sizes

`communicate_sizes` tells every member of a group how many elements it is going
to receive from each member. All calls share one MPI tag and no call waits for
other ranks to finish it, so ranks may be any number of calls apart.
-/

namespace DistributedJoin

open Spmd

/-- `std::partial_sum` and `thrust::inclusive_scan`: the running totals of a
list. -/
def inclusive_scan (add : Int → Int → Int) : List Int → List Int
  | [] => []
  | first :: rest => rest.scanl add first

/-- The running totals of 64-bit counts. -/
def partial_sum (values : List Int) : List Int := inclusive_scan (· + ·) values

/-- Start positions of consecutive blocks with the given counts, and the end of
the last block. -/
def offsetsOf (counts : List Int) : List Int := 0 :: partial_sum counts

/-- The number of elements between an offset and the next. -/
def countAt (offsets : List Int) (index : Nat) : Int :=
  offsets.getD (index + 1) 0 - offsets.getD index 0

theorem offsetsOf_eq_scanl (counts : List Int) :
    offsetsOf counts = counts.scanl (· + ·) 0 := by
  cases counts with
  | nil => rfl
  | cons first rest =>
      rw [List.scanl_cons, zero_add]
      rfl

@[simp] theorem length_offsetsOf (counts : List Int) :
    (offsetsOf counts).length = counts.length + 1 := by
  rw [offsetsOf_eq_scanl, List.length_scanl]

/-- An offset is the sum of the counts before it. -/
theorem getD_offsetsOf
    (counts : List Int)
    {index : Nat}
    (indexBound : index ≤ counts.length) :
    (offsetsOf counts).getD index 0 = (counts.take index).sum := by
  have inside : index < (counts.scanl (· + ·) 0).length := by
    rw [List.length_scanl]
    omega
  rw [offsetsOf_eq_scanl, List.getD_eq_getElem _ _ inside, List.getElem_scanl,
    List.sum_eq_foldl]

/-- Neighbouring offsets are a count apart. -/
theorem countAt_offsetsOf
    (counts : List Int)
    {index : Nat}
    (indexBound : index < counts.length) :
    countAt (offsetsOf counts) index = counts.getD index 0 := by
  unfold countAt
  rw [getD_offsetsOf counts indexBound, getD_offsetsOf counts (Nat.le_of_lt indexBound),
    List.take_succ_eq_append_getElem indexBound, List.sum_append,
    List.getD_eq_getElem _ _ indexBound]
  simp

/-- The last offset is the sum of all counts. -/
theorem getLastD_offsetsOf (counts : List Int) :
    (offsetsOf counts).getLastD 0 = counts.sum := by
  rw [List.getLastD_eq_getLast?, List.getLast?_eq_getElem?, length_offsetsOf,
    Nat.add_sub_cancel]
  have last := getD_offsetsOf counts (Nat.le_refl counts.length)
  rw [List.take_length, List.getD_eq_getElem?_getD] at last
  exact last

/-- The first of some sizes add up to at most all of them. -/
theorem sum_take_le
    {values : List Int}
    (nonnegative : ∀ value ∈ values, 0 ≤ value)
    (index : Nat) :
    0 ≤ (values.take index).sum ∧ (values.take index).sum ≤ values.sum := by
  have rest : 0 ≤ (values.drop index).sum :=
    List.sum_nonneg fun value member => nonnegative value (List.mem_of_mem_drop member)
  have split := congrArg List.sum (List.take_append_drop index values)
  rw [List.sum_append] at split
  exact ⟨List.sum_nonneg fun value member =>
    nonnegative value (List.mem_of_mem_take member), by omega⟩

/-- The offsets of blocks with given sizes, by index. -/
theorem getD_offsetsOf_map_range
    (size : Nat → Nat)
    {index total : Nat}
    (indexBound : index ≤ total) :
    (offsetsOf ((List.range total).map fun block => (size block : Int))).getD index 0 =
      (((List.range index).map size).sum : Nat) := by
  rw [getD_offsetsOf _ (by simpa using indexBound), ← List.map_take, List.take_range,
    Nat.min_eq_left indexBound]
  induction index with
  | zero => rfl
  | succ index inductionHypothesis =>
      rw [List.range_succ, List.map_append, List.map_append, List.sum_append,
        List.sum_append, inductionHypothesis (Nat.le_of_succ_le indexBound)]
      simp

/-- The end of the last of several blocks. -/
theorem getLastD_offsetsOf_map_range (size : Nat → Nat) (total : Nat) :
    (offsetsOf ((List.range total).map fun block => (size block : Int))).getLastD 0 =
      (((List.range total).map size).sum : Nat) := by
  rw [← getD_offsetsOf_map_range size (Nat.le_refl total), List.getLastD_eq_getLast?,
    List.getLast?_eq_getElem?, length_offsetsOf, List.length_map, List.length_range,
    Nat.add_sub_cancel, ← List.getD_eq_getElem?_getD]

/-- Tell every member of the group how many elements it will receive, and find
out how many elements arrive from each of them. -/
def communicate_sizes
    (send_offset : List Int)
    (comm_group : CommunicationGroup) : Process ranks (List Int) := do
  let comm_group_size := comm_group.size
  let send_count := (List.range comm_group_size).map fun local_idx =>
    send_offset.getD (local_idx + 1) 0 - send_offset.getD local_idx 0
  Process.sendEach (I := ranks) .mpi
    ((List.range comm_group_size).map fun local_idx =>
      (comm_group.get_global_rank local_idx, send_count.getD local_idx (-1)))
  Process.postEach (I := ranks) .mpi
    ((List.range comm_group_size).map fun local_idx =>
      (comm_group.get_global_rank local_idx, local_idx))
  let arrivals ← Process.await (I := ranks) .mpi
  let recv_count := arrivals.foldl
    (fun counts arrival => counts.set arrival.1 arrival.2)
    (List.replicate comm_group_size (-1))
  pure (0 :: partial_sum recv_count)

/-- Filling the slots of an array one after the other. -/
theorem foldl_set_range
    {α : Type}
    (value : Nat → α)
    (initial : List α) :
    ((List.range initial.length).map fun index => (index, value index)).foldl
      (fun values entry => values.set entry.1 entry.2) initial =
        (List.range initial.length).map value := by
  have partly : ∀ bound, bound ≤ initial.length →
      ((List.range bound).map fun index => (index, value index)).foldl
        (fun values entry => values.set entry.1 entry.2) initial =
          (List.range bound).map value ++ initial.drop bound := by
    intro bound
    induction bound with
    | zero => intro _; rfl
    | succ bound inductionHypothesis =>
        intro boundLe
        rw [List.range_succ, List.map_append, List.foldl_append,
          inductionHypothesis (Nat.le_of_succ_le boundLe), List.map_append]
        simp only [List.map_cons, List.map_nil, List.foldl_cons, List.foldl_nil]
        have position : bound = ((List.range bound).map value).length := by simp
        conv_lhs => rw [List.drop_eq_getElem_cons boundLe]; arg 2; rw [position]
        rw [List.set_append_right _ _ (Nat.le_refl _), Nat.sub_self,
          List.set_cons_zero, List.append_assoc]
        rfl
  have complete := partly initial.length (Nat.le_refl _)
  simpa using complete

namespace Layout

variable {n : Nat} (layout : Layout n)

/-- The indices in its group of the ranks that a rank exchanges data with: all
of them, or all but its own. -/
def indices (include_current_rank : Bool) (rank : Nat) : List Nat :=
  (List.range layout.group_size).filter fun local_idx =>
    include_current_rank || layout.member rank local_idx != rank

/-- The ranks that a rank exchanges data with. -/
def peers (include_current_rank : Bool) (rank : Nat) : List Nat :=
  (layout.indices include_current_rank rank).map (layout.member rank)

@[simp] theorem indices_true (rank : Nat) :
    layout.indices true rank = List.range layout.group_size := by
  simp [indices]

theorem mem_indices {include_current_rank : Bool} {rank index : Nat} :
    index ∈ layout.indices include_current_rank rank ↔
      index < layout.group_size ∧
        (include_current_rank = true ∨ layout.member rank index ≠ rank) := by
  simp [indices]

theorem mem_peers {include_current_rank : Bool} {rank peer : Nat} :
    peer ∈ layout.peers include_current_rank rank ↔
      (∃ index, index < layout.group_size ∧ layout.member rank index = peer) ∧
        (include_current_rank = true ∨ peer ≠ rank) := by
  rw [peers, List.mem_map]
  constructor
  · rintro ⟨index, member, rfl⟩
    obtain ⟨indexBound, included⟩ := layout.mem_indices.mp member
    exact ⟨⟨index, indexBound, rfl⟩, included⟩
  · rintro ⟨⟨index, indexBound, rfl⟩, included⟩
    exact ⟨index, layout.mem_indices.mpr ⟨indexBound, included⟩, rfl⟩

/-- A rank that exchanges data with a member is one that the member exchanges
data with. -/
theorem local_idx_mem_indices
    {include_current_rank : Bool}
    {rank index : Nat}
    (member : index ∈ layout.indices include_current_rank rank) :
    layout.local_idx rank ∈
      layout.indices include_current_rank (layout.member rank index) := by
  obtain ⟨indexBound, included⟩ := layout.mem_indices.mp member
  refine layout.mem_indices.mpr ⟨layout.local_idx_lt rank, ?_⟩
  rw [layout.member_member rank _ indexBound, member_local_idx]
  exact included.imp_right Ne.symm

/-- The members of groups can exchange messages. -/
theorem neighbours (include_current_rank : Bool) :
    Neighbours n (layout.peers include_current_rank) where
  distinct := fun rank _ =>
    (List.nodup_range.filter _).map_on fun _ _ _ _ equal =>
      layout.member_injective rank equal
  bounded := by
    intro rank rankBound peer member
    obtain ⟨⟨index, indexBound, rfl⟩, _⟩ := layout.mem_peers.mp member
    exact layout.member_lt rankBound indexBound
  symmetric := by
    intro rank peer _ _
    rw [layout.mem_peers, layout.mem_peers, layout.exists_member_comm rank peer]
    simp only [ne_comm]

/-- Pairing every peer with a value that depends on its index. -/
theorem map_indices
    {α : Type}
    (include_current_rank : Bool)
    (rank : Nat)
    (value : Nat → Nat → α) :
    (layout.indices include_current_rank rank).map
        (fun index => value (layout.member rank index) index) =
      (layout.peers include_current_rank rank).map
        fun peer => value peer (layout.local_idx peer) := by
  rw [peers, List.map_map]
  apply List.map_congr_left
  intro index member
  simp only [Function.comp_apply,
    layout.local_idx_member rank (layout.mem_indices.mp member).1]

/-- How many elements a rank receives from each member of its group, when every
rank sends by its own offsets. -/
def incoming (send_offset : Nat → List Int) (rank : Nat) : List Int :=
  (List.range layout.group_size).map fun index =>
    countAt (send_offset (layout.member rank index)) (layout.local_idx rank)

/-- The offsets that `communicate_sizes` returns on a rank. -/
def exchanged (send_offset : Nat → List Int) (rank : Nat) : List Int :=
  offsetsOf (layout.incoming send_offset rank)

@[simp] theorem length_incoming (send_offset : Nat → List Int) (rank : Nat) :
    (layout.incoming send_offset rank).length = layout.group_size := by
  simp [incoming]

@[simp] theorem length_exchanged (send_offset : Nat → List Int) (rank : Nat) :
    (layout.exchanged send_offset rank).length = layout.group_size + 1 := by
  simp [exchanged]

/-- The received count is the count that the member sends. -/
theorem countAt_exchanged
    (send_offset : Nat → List Int)
    (rank : Nat)
    {index : Nat}
    (indexBound : index < layout.group_size) :
    countAt (layout.exchanged send_offset rank) index =
      countAt (send_offset (layout.member rank index)) (layout.local_idx rank) := by
  rw [exchanged, countAt_offsetsOf _ (by simpa using indexBound),
    List.getD_eq_getElem _ _ (by simpa using indexBound)]
  simp [incoming]

/-- What a rank does during `communicate_sizes`. -/
def sizesEvents (send_offset : Nat → List Int) (rank : Nat) : List (Event ranks) :=
  ((layout.peers true rank).map fun peer =>
      .sent .mpi peer (countAt (send_offset rank) (layout.local_idx peer))) ++
    ((layout.peers true rank).map fun peer =>
      .posted .mpi peer (layout.local_idx peer)) ++
    [.waited .mpi]

end Layout

/-- All ranks together exchange their sizes. -/
theorem phase_communicate_sizes
    {n : Nat}
    {eager : Eagerness ranks}
    {before : Arrivals ranks}
    (layout : Layout n)
    (send_offset : Nat → List Int)
    (quiet : before .mpi = fun _ => []) :
    Phase n eager before
      (fun rank => communicate_sizes (send_offset rank) (layout.group rank))
      before (.ok (layout.exchanged send_offset))
      (layout.sizesEvents send_offset) := by
  let message : Nat → Nat → Int := fun rank peer =>
    countAt (send_offset rank) (layout.local_idx peer)
  let slot : Nat → Nat → Nat := fun _ peer => layout.local_idx peer
  have exchange : Phase n eager before _ _ _ _ :=
    Phase.exchange (I := ranks) (layout.neighbours true) .mpi message slot
  have waiting : Phase n eager
      (before.deliver .mpi fun rank => (layout.peers true rank).map fun peer =>
        (slot rank peer, message peer rank))
      _ _ _ _ := Phase.await (I := ranks) .mpi
  rw [Arrivals.settle_deliver quiet, Arrivals.deliver_quiet quiet] at waiting
  have composed : Phase n eager before
      (fun rank => (do
          Process.sendEach (I := ranks) .mpi
            ((layout.peers true rank).map fun peer => (peer, message rank peer))
          Process.postEach (I := ranks) .mpi
            ((layout.peers true rank).map fun peer => (peer, slot rank peer))) >>=
        fun _ => Process.await (I := ranks) .mpi >>= fun arrivals =>
          Process.pure (0 :: partial_sum (arrivals.foldl
            (fun counts arrival => counts.set arrival.1 arrival.2)
            (List.replicate layout.group_size (-1)))))
      before _ _ :=
    exchange.bind (waiting.map fun _ arrivals =>
      0 :: partial_sum (arrivals.foldl
        (fun counts arrival => counts.set arrival.1 arrival.2)
        (List.replicate layout.group_size (-1))))
  refine (composed.congr fun rank _ => ?_).congr_result fun rank rankBound => ?_
  · have sends : (List.range layout.group_size).map (fun index =>
        (layout.member rank index,
          ((List.range layout.group_size).map fun local_idx =>
            countAt (send_offset rank) local_idx).getD index (-1))) =
        (layout.peers true rank).map fun peer => (peer, message rank peer) := by
      rw [← layout.map_indices true rank fun peer index =>
        (peer, countAt (send_offset rank) index), layout.indices_true]
      apply List.map_congr_left
      intro index member
      have indexBound : index < layout.group_size := List.mem_range.mp member
      rw [List.getD_eq_getElem _ _ (by simpa using indexBound)]
      simp
    have posts : (List.range layout.group_size).map (fun index =>
        (layout.member rank index, index)) =
        (layout.peers true rank).map fun peer => (peer, slot rank peer) := by
      rw [← layout.map_indices true rank fun peer index => (peer, index),
        layout.indices_true]
    rw [← sends, ← posts]
    simp only [communicate_sizes, bind_assoc]
    rfl
  · have arrived : (layout.peers true rank).map
        (fun peer => (slot rank peer, message peer rank)) =
        (List.range layout.group_size).map fun index =>
          (index, countAt (send_offset (layout.member rank index))
            (layout.local_idx rank)) := by
      rw [← layout.indices_true rank, layout.map_indices true rank fun peer index =>
        (index, countAt (send_offset peer) (layout.local_idx rank))]
    have filled := foldl_set_range
      (fun index => countAt (send_offset (layout.member rank index))
        (layout.local_idx rank))
      (List.replicate layout.group_size (-1))
    rw [List.length_replicate] at filled
    simp only [arrived, filled]
    rfl

end DistributedJoin
