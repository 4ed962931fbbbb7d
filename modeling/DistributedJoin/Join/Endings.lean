import DistributedJoin.Join.BatchResults
import DistributedJoin.Join.Duality

/-!
# How the calling threads end

Communication announces nothing to the joining threads, so the announcements of a call are
those that it makes itself when the tables of a batch have been received.
-/

namespace DistributedJoin

open Device Spmd

theorem Layout.filter_sizesEvents
    {n : Nat}
    (layout : Layout n)
    (send_offset : Nat → List Int)
    (rank : Nat) :
    (layout.sizesEvents send_offset rank).filter announces = [] := by
  simp [Layout.sizesEvents, announces]

theorem Layout.filter_transferEvents
    {n : Nat}
    (layout : Layout n)
    (include_current_rank : Bool)
    (buffer : Buffer)
    (data : Nat → List Byte)
    (send_offset recv_offset : Nat → List Int)
    (item_size rank : Nat) :
    (layout.transferEvents include_current_rank buffer data send_offset recv_offset item_size
      rank).filter announces = [] := by
  simp [Layout.transferEvents, announces]

theorem filter_groupEvents
    (group_by_batch : Bool)
    {events : List (Event ranks)}
    (silent : events.filter announces = []) :
    (groupEvents group_by_batch events).filter announces = [] := by
  unfold groupEvents
  split
  · exact silent
  · rw [List.filter_append, List.filter_cons_of_neg (by simp [announces]), silent]
    rfl

theorem filter_flatMap_silent
    {α : Type}
    (values : List α)
    {events : α → List (Event ranks)}
    (silent : ∀ value ∈ values, (events value).filter announces = []) :
    (values.flatMap events).filter announces = [] := by
  rw [List.filter_flatMap]
  exact List.flatMap_eq_nil_iff.mpr silent

theorem GroupPlan.filter_events
    {n : Nat}
    (plan : GroupPlan)
    (layout : Layout n)
    (gpu : Gpu)
    (include_current_rank group_by_batch : Bool)
    (rank : Nat) :
    (plan.events layout gpu include_current_rank group_by_batch rank).filter announces = [] := by
  unfold GroupPlan.events
  split
  · exact filter_groupEvents _ (layout.filter_transferEvents ..)
  · rw [List.filter_append, layout.filter_sizesEvents,
      filter_groupEvents _ (layout.filter_transferEvents ..)]
    rfl

namespace Redistribution

variable {n : Nat} (task : Redistribution n) (gpu : Gpu) (rank : Nat)

theorem filter_createEvents : (task.createEvents rank).filter announces = [] := by
  rw [createEvents, List.filter_append, task.layout.filter_sizesEvents, List.nil_append]
  refine filter_flatMap_silent _ fun icol _ => ?_
  split
  · exact task.layout.filter_sizesEvents _ rank
  · rfl

theorem filter_allocateEvents : (task.allocateEvents rank).filter announces = [] := by
  unfold allocateEvents
  split
  · simp [announces]
  · rfl

theorem filter_launchEvents : (task.launchEvents gpu rank).filter announces = [] :=
  filter_groupEvents _ (filter_flatMap_silent _ fun plan _ => plan.filter_events ..)

/-- The communication of a table announces nothing. -/
theorem filter_events : (task.events gpu rank).filter announces = [] := by
  rw [events, List.filter_append, List.filter_append, task.filter_createEvents,
    task.filter_allocateEvents, task.filter_launchEvents]
  rfl

end Redistribution

namespace JoinCall

variable {n : Nat} {join : JoinCall n} {eager : Eagerness ranks} {cudf : Cudf} (gpu : Gpu)

/-- The tables of all batches that a rank receives. -/
def received_batches
    (kept : join.BatchesKept cudf.hash_partition)
    (rank : Nat)
    (side : Side)
    (ibatch : Nat) : Table :=
  (batch kept side ibatch).communicated gpu rank

/-- The exchange of the batches announces them one by one. -/
theorem filter_batchesEvents
    (kept : join.BatchesKept cudf.hash_partition)
    (rank : Nat) :
    (batchesEvents kept gpu rank).filter announces =
      announcements (received_batches gpu kept rank) join.over_decom_factor := by
  have constructs : ((List.range join.over_decom_factor).flatMap fun ibatch =>
      constructEvents kept ibatch rank).filter announces = [] :=
    filter_flatMap_silent _ fun ibatch _ => by
      rw [constructEvents, List.filter_append, Redistribution.filter_createEvents,
        Redistribution.filter_createEvents]
      rfl
  have allocates : ((List.range join.over_decom_factor).flatMap fun ibatch =>
      allocateEvents kept ibatch rank).filter announces = [] :=
    filter_flatMap_silent _ fun ibatch _ => by
      rw [allocateEvents, List.filter_append, Redistribution.filter_allocateEvents,
        Redistribution.filter_allocateEvents]
      rfl
  rw [batchesEvents, List.filter_append, List.filter_append, constructs, allocates,
    List.filter_flatMap]
  refine List.flatMap_congr fun ibatch _ => ?_
  rw [launchEvents, List.filter_append, Redistribution.filter_launchEvents, List.filter_append,
    List.filter_append, Redistribution.filter_launchEvents]
  rfl

/-- What a rank does after the shuffle. -/
def remainderEvents
    (kept : join.BatchesKept cudf.hash_partition)
    (rank : Nat) : List (Event ranks) :=
  if join.nvlink_partition_size = 1 then [] else batchesEvents kept gpu rank

theorem filter_remainderEvents
    (kept : join.BatchesKept cudf.hash_partition)
    (rank : Nat) :
    (remainderEvents gpu kept rank).filter announces =
      announcements (received_batches gpu kept rank)
        (JoinState.batch_count join.over_decom_factor (join.outcome cudf rank)) := by
  rw [remainderEvents, outcome]
  split
  · rfl
  · exact filter_batchesEvents gpu kept rank

/-- What follows the shuffle, on all ranks. -/
theorem attempt_remainder (kept : join.BatchesKept cudf.hash_partition) :
    Attempt (join.nvlink_partition_size ≠ 1 → BatchesAllocate kept) n eager (Arrivals.none ranks)
      (fun rank => join.remainder cudf gpu rank (join.tables rank)) (Arrivals.none ranks)
      (.ok (join.outcome cudf)) (remainderEvents gpu kept) := by
  unfold remainderEvents
  by_cases alone : join.nvlink_partition_size = 1
  · simp only [if_pos alone]
    refine (Phase.pure (join.outcome cudf)).attempt.congr fun rank _ => ?_
    rw [remainder, outcome, if_pos alone, if_pos alone]
    rfl
  · simp only [if_neg alone]
    have exchanged : Attempt (BatchesAllocate kept) n eager (Arrivals.none ranks) _ _ _ _ :=
      (attempt_communicate_batches kept gpu).map fun rank _ => join.outcome cudf rank
    refine (exchanged.congr fun rank _ => ?_).mono fun allocates => allocates alone
    rw [remainder, outcome, if_neg alone, if_neg alone]
    rfl

/-- The call with other tables. -/
def with_input (join : JoinCall n) (input : Side → JoinTable n) : JoinCall n :=
  { join with input := input }

/-- The tables that are left after the shuffle, if there is one. -/
def exchanged_input
    (join : JoinCall n)
    {hash_partition : HashPartition}
    (kept : join.ShuffleKept hash_partition)
    (gpu : Gpu) : Side → JoinTable n :=
  if join.nvlink_partition_size = n then join.input else (shuffled kept gpu).input

/-- The call with the tables that are left after the shuffle. -/
def after_shuffle
    (join : JoinCall n)
    {hash_partition : HashPartition}
    (kept : join.ShuffleKept hash_partition)
    (gpu : Gpu) : JoinCall n :=
  join.with_input (join.exchanged_input kept gpu)

/-- The calling threads, with or without a shuffle, and what they announce. -/
theorem exists_attempt_program
    (shuffleKept : join.ShuffleKept cudf.hash_partition)
    (supported : join.nvlink_partition_size ≠ n → ∀ side, (shuffle shuffleKept side).Supported)
    (narrow : join.nvlink_partition_size ≠ n → ∀ side, (shuffle shuffleKept side).Narrow)
    (kept : (join.after_shuffle shuffleKept gpu).BatchesKept cudf.hash_partition) :
    ∃ log, Attempt (join.Allocates cudf gpu) n eager (Arrivals.none ranks)
        (join.program cudf gpu) (Arrivals.none ranks)
        (.ok ((join.after_shuffle shuffleKept gpu).outcome cudf)) log ∧
      ∀ rank, (log rank).filter announces =
        announcements (received_batches gpu kept rank)
          (JoinState.batch_count join.over_decom_factor
            ((join.after_shuffle shuffleKept gpu).outcome cudf rank)) := by
  unfold Allocates
  by_cases single : join.nvlink_partition_size = n
  · have input : join.exchanged_input shuffleKept gpu = join.input := if_pos single
    revert kept
    rw [after_shuffle, input, if_pos single]
    intro kept
    have attempt : Attempt _ n eager (Arrivals.none ranks) (join.program cudf gpu) _ _ _ :=
      (attempt_remainder gpu kept).congr fun rank _ => program_of_eq gpu single rank
    exact ⟨_, attempt.mono fun allocates several => allocates several kept,
      fun rank => filter_remainderEvents gpu kept rank⟩
  · have input : join.exchanged_input shuffleKept gpu = (shuffled shuffleKept gpu).input :=
      if_neg single
    revert kept
    rw [after_shuffle, input, if_neg single]
    intro kept
    have shuffles : Attempt (ShuffleAllocates shuffleKept ∧
        (join.nvlink_partition_size ≠ 1 → BatchesAllocate kept)) n eager (Arrivals.none ranks)
          _ _ _ _ :=
      (attempt_shuffle shuffleKept gpu (supported single) (narrow single)).mono And.left
    have remains : Attempt (ShuffleAllocates shuffleKept ∧
        (join.nvlink_partition_size ≠ 1 → BatchesAllocate kept)) n eager (Arrivals.none ranks)
          _ _ _ _ :=
      (attempt_remainder gpu kept).mono And.right
    refine ⟨_, ((shuffles.bind remains).congr fun rank _ => program_of_ne gpu single rank).mono
      fun allocates => ⟨(allocates shuffleKept).1,
        fun several => (allocates shuffleKept).2 several kept⟩, fun rank => ?_⟩
    rw [List.filter_append, List.filter_append, Redistribution.filter_events,
      Redistribution.filter_events]
    exact filter_remainderEvents gpu kept rank

/-- How a call ends, with or without a shuffle. -/
theorem ends_after_shuffle
    (shuffleKept : join.ShuffleKept cudf.hash_partition)
    (supported : join.nvlink_partition_size ≠ n → ∀ side, (shuffle shuffleKept side).Supported)
    (narrow : join.nvlink_partition_size ≠ n → ∀ side, (shuffle shuffleKept side).Narrow)
    (kept : (join.after_shuffle shuffleKept gpu).BatchesKept cudf.hash_partition)
    (allocates : join.Allocates cudf gpu) :
    ∃ log, JoinState.Ends n eager (join.program cudf gpu) join.over_decom_factor
      ((join.after_shuffle shuffleKept gpu).outcome cudf) (received_batches gpu kept) log := by
  obtain ⟨log, attempt, announced⟩ := exists_attempt_program gpu shuffleKept supported narrow kept
  exact ⟨log, .of_returning (attempt.phase allocates), fun rank _ => announced rank⟩

/-- How a call ends if no rank stops with an error on the way. -/
theorem ends_unless_stopped
    (shuffleKept : join.ShuffleKept cudf.hash_partition)
    (supported : join.nvlink_partition_size ≠ n → ∀ side, (shuffle shuffleKept side).Supported)
    (narrow : join.nvlink_partition_size ≠ n → ∀ side, (shuffle shuffleKept side).Narrow)
    (kept : (join.after_shuffle shuffleKept gpu).BatchesKept cudf.hash_partition) :
    ∃ whole : Nat → Process ranks (Option Table),
      (∀ rank, rank < n → (join.program cudf gpu rank).Interrupts (whole rank)) ∧
        ∃ log, JoinState.Ends n eager whole join.over_decom_factor
          ((join.after_shuffle shuffleKept gpu).outcome cudf) (received_batches gpu kept) log := by
  obtain ⟨log, ⟨whole, interrupts, _, phase⟩, announced⟩ :=
    @exists_attempt_program n join eager cudf gpu shuffleKept supported narrow kept
  exact ⟨whole, interrupts, log, .of_returning phase, fun rank _ => announced rank⟩

end JoinCall

end DistributedJoin
