import DistributedJoin.Join.Plans
import DistributedJoin.Join.Threads

/-!
# The transfers of the distributed join

Whatever the tables contain and in whatever order the threads run, two ranks plan the
same transfers for each other.
-/

namespace DistributedJoin

open Device Spmd

/-- An inner join, by way of the rows of the tables. -/
def nested_loop_join : InnerJoin := fun left right left_on right_on =>
  Table.ofRows (left.schema ++ right.schema) (left.rows.flatMap fun left_row =>
    (right.rows.filter fun right_row => keyOf left_on left_row = keyOf right_on right_row).map
      fun right_row => left_row ++ right_row)

/-- A concatenation, by way of the rows of the tables. -/
def concatenate_rows : Concatenate
  | [] => .ok []
  | first :: rest =>
      if rest.any fun table => table.length ≠ first.length then
        .error "Mismatch in table columns to concatenate."
      else if rest.any fun table => table.schema ≠ first.schema then
        .error "Type mismatch in columns to concatenate."
      else .ok (Table.ofRows first.schema ((first :: rest).flatMap Table.rows))

/-- A reference for the functions on tables, for a hash function. -/
def cudf_by_rows (hash : HashId → Nat → List Cell → Nat) : Cudf where
  hash_partition := sorted_by_hash hash
  inner_join := nested_loop_join
  concatenate := concatenate_rows

namespace JoinCall

variable {n : Nat} (join : JoinCall n) (cudf : Cudf) (gpu : Gpu) (eager : Eagerness ranks)

/-- A thread of a rank takes its next step in the call. -/
def step : Fin n × Thread → JoinState → Option JoinState :=
  JoinState.step cudf n eager (join.input .left).on_columns (join.input .right).on_columns
    join.over_decom_factor

/-- All ranks begin the call. -/
def start : JoinState := .start (join.program cudf gpu)

end JoinCall

/-- For every pair of ranks the transfers from one to the other that they plan during a
join are the same on both, in the same groups, and a group has at most one of them when
buffers are not grouped. Ranks that return have done all that is planned. If no rank asks
for a column of a negative size, all ranks do it and end. -/
theorem join_plans_dual
    {n : Nat}
    (join : JoinCall n)
    (cudf : Cudf)
    (gpu : Gpu)
    (eager : Eagerness ranks)
    (cuts : HashPartition.Cuts cudf.hash_partition)
    (sound : ∀ side rank, rank < n → ((join.input side).table rank).Sound) :
    ∃ log : Nat → List (Event ranks), Dual n join.group_by_batch log ∧
      (∀ state, Reaches (join.step cudf eager) (join.start cudf gpu) state →
        ∀ rank, rank < n → (state.calling rank).log <+: log rank ∧
          ∀ result, (state.calling rank).process = .pure result →
            (state.calling rank).log = log rank) ∧
      (join.Allocates cudf gpu →
        ∀ state, Reaches (join.step cudf eager) (join.start cudf gpu) state →
          (∀ rank, rank < n → (state.calling rank).process.Ended →
            (state.calling rank).log = log rank) ∧
          ∃ finish, Reaches (join.step cudf eager) state finish ∧
            ∀ rank, rank < n → (finish.calling rank).process.Ended) := by
  have program : ∃ result, Planned (join.Allocates cudf gpu) n eager join.group_by_batch
      (join.program cudf gpu) result :=
    join.planned_program gpu cuts sound
  obtain ⟨_, planned⟩ := program
  obtain ⟨log, dual, grows, completes⟩ := planned.settles
  refine ⟨log, dual, fun state reached => grows _ (JoinState.calling_reaches reached),
    fun allocates state reached => ?_⟩
  obtain ⟨final, settles⟩ := completes allocates
  have calling := JoinState.calling_reaches reached
  constructor
  · exact fun rank rankBound ended => (settles.ended_eq calling rankBound ended).2
  · obtain ⟨finish, further, finished⟩ := settles.reaches_final calling
    refine ⟨_, JoinState.reaches_of_calling further state rfl, fun rank rankBound => ?_⟩
    rw [(finished rank rankBound).1]
    exact settles.ended rank rankBound

/-- Ranks of one NVLink domain that join bytes. -/
def bytesJoin (n : Nat) (n_pos : 0 < n) (bytes : Side → Nat → List Byte) : JoinCall n where
  n_pos := n_pos
  input := fun side => {
    schema := [⟨.INT8, 0⟩]
    table := fun rank => .ofBytes (bytes side rank)
    same_schema := fun _ _ => rfl
    on_columns := [0]
    options := [] }
  group_by_batch := false
  over_decom_factor := 2
  over_decom_factor_pos := Nat.two_pos
  nvlink_domain_size := n

/-- Two ranks join bytes in two batches. -/
theorem join_plans_dual_two_ranks :
    ∃ log : Nat → List (Event ranks), Dual 2 false log ∧
      ∀ state, Reaches
          ((bytesJoin 2 Nat.two_pos fun _ _ => [1, 2]).step (cudf_by_rows sumOfBytes)
            fun _ _ _ _ => false)
          ((bytesJoin 2 Nat.two_pos fun _ _ => [1, 2]).start (cudf_by_rows sumOfBytes)
            storingGpu) state →
        (∀ rank, rank < 2 → (state.calling rank).log <+: log rank ∧
          ((state.calling rank).process.Ended → (state.calling rank).log = log rank)) ∧
        ∃ finish, Reaches
            ((bytesJoin 2 Nat.two_pos fun _ _ => [1, 2]).step (cudf_by_rows sumOfBytes)
              fun _ _ _ _ => false) state finish ∧
          ∀ rank, rank < 2 → (finish.calling rank).process.Ended := by
  have allocates : (bytesJoin 2 Nat.two_pos fun _ _ => [1, 2]).Allocates
      (cudf_by_rows sumOfBytes) storingGpu := by
    have single : (bytesJoin 2 Nat.two_pos fun _ _ => [1, 2]).nvlink_partition_size = 2 := rfl
    rw [JoinCall.Allocates, if_pos single]
    have sizes : ∀ side, ∀ ibatch < 2, ∀ rank < 2, ¬ (JoinCall.batch
        (JoinCall.batchesKept_of_cuts (bytesJoin 2 Nat.two_pos fun _ _ => [1, 2])
          (cuts_sorted_by_hash sumOfBytes)) side ibatch).NegativeSize rank := by
      intro side
      cases side with
      | left => decide
      | right => decide
    intro _ _ side ibatch ibatchBound
    exact (Redistribution.allocates_iff _).mpr (sizes side ibatch ibatchBound)
  obtain ⟨log, dual, grows, completes⟩ := join_plans_dual
    (bytesJoin 2 Nat.two_pos fun _ _ => [1, 2]) (cudf_by_rows sumOfBytes) storingGpu
    (fun _ _ _ _ => false) (cuts_sorted_by_hash sumOfBytes)
    fun _ _ _ => (Table.wellFormed_ofBytes (show [1, 2].length < 2 ^ 31 by decide)).sound
  refine ⟨log, dual, fun state reached => ?_⟩
  obtain ⟨whole, ends⟩ := completes allocates state reached
  exact ⟨fun rank rankBound => ⟨(grows state reached rank rankBound).1, whole rank rankBound⟩, ends⟩

/-- The sends of one buffer to the members of a group. -/
def sendEvents
    (source : Buffer)
    (data : List Byte)
    (offset : List Int)
    (item_size : Nat)
    (comm_group : CommunicationGroup)
    (communicator : Communicator)
    (self_send : Bool) : List (Event ranks) :=
  ((List.range comm_group.size).filter fun local_idx =>
      self_send || comm_group.get_global_rank local_idx != communicator.mpi_rank).map
    fun local_idx => .sent .communicator (comm_group.get_global_rank local_idx)
      (transferAt source data offset item_size local_idx)

/-- Without grouping, the exchange of a buffer begins with its sends. -/
theorem begins_exchange
    {buffer : Buffer}
    {data : List Byte}
    {send_offset recv_offset : List Int}
    {item_size : Nat}
    {comm_group : CommunicationGroup}
    {communicator : Communicator}
    {include_current_rank : Bool}
    (ungrouped : communicator.group_by_batch = false) :
    ∃ rest, (exchange_by_offset buffer data send_offset recv_offset item_size comm_group
        communicator include_current_rank).Begins
      (.noted .start :: sendEvents buffer data send_offset item_size comm_group communicator
        include_current_rank) rest := by
  have opened : Communicator.start.Begins [.noted .start] (.pure ()) := .note _ (.nil _)
  have sends : (send_data_by_offset buffer data send_offset item_size comm_group communicator
      include_current_rank).Begins (sendEvents buffer data send_offset item_size comm_group
        communicator include_current_rank) (.pure ()) := by
    have each := Process.begins_sendEach (I := ranks) .communicator
      (((List.range comm_group.size).filter fun local_idx =>
          include_current_rank ||
            comm_group.get_global_rank local_idx != communicator.mpi_rank).map fun local_idx =>
        (comm_group.get_global_rank local_idx,
          transferAt buffer data send_offset item_size local_idx))
    rwa [List.map_map] at each
  rw [exchange_by_offset, ungrouped]
  exact ⟨_, (opened.bind _).trans (sends.bind _)⟩

namespace Redistribution

variable {n : Nat} (task : Redistribution n)

/-- Creating columns is nothing that a rank waits for. -/
theorem begins_allocate
    {rank : Nat}
    (rankBound : rank < n)
    (accepted : ¬ task.Refused rank) :
    ((task.created rank).allocate_communicated_table).Begins (task.allocateEvents rank)
      (.pure (task.allocated rank)) := by
  rw [task.allocate_of_not_refused accepted, allocateEvents, allocated]
  split
  · rw [AllToAllCommunicator.copy_table_to_current_rank, task.copies_created rankBound,
      List.mapM_map, List.map_eq_flatMap]
    exact .mapM _ fun plan _ => .note _ (.nil _)
  · exact .nil _

/-- A rank that can create its columns begins to send, even if others cannot create theirs. -/
theorem reaches_launched
    {β : Type}
    (eager : Eagerness ranks)
    (gpu : Gpu)
    (continuation : Nat → Table → Process ranks β)
    {rank : Nat}
    (rankBound : rank < n)
    (accepted : ¬ task.Refused rank)
    {events : List (Event ranks)}
    {rest : Process ranks Table}
    (begins : ((task.created rank).launch_communication gpu (task.allocated rank)).Begins events
      rest) :
    ∃ state, Reaches (Configuration.step n eager)
        (Configuration.start fun rank => task.program gpu rank >>= continuation rank) state ∧
      (state rank).log = task.createEvents rank ++ (task.allocateEvents rank ++ events) ∧
      ∀ other, other < n → task.Refused other →
        (state other).process = .fail "Column size cannot be negative." ∧
          (state other).log = task.createEvents other := by
  obtain ⟨created, reached, _, at_creation⟩ := task.phase_create _
    (fun rank created => (created.allocate_communicated_table >>= fun memory =>
      created.launch_communication gpu memory) >>= continuation rank)
    (Configuration.start fun rank => task.program gpu rank >>= continuation rank)
    (resolved_start _) fun rank _ => Process.bind_bind _ _ _
  have goes_on : ((task.created rank).allocate_communicated_table >>= fun memory =>
      (task.created rank).launch_communication gpu memory).Begins
        (task.allocateEvents rank ++ events) rest :=
    ((task.begins_allocate rankBound accepted).bind _).trans begins
  obtain ⟨port, drives⟩ := Configuration.drives_begins (goes_on.bind (continuation rank))
    rankBound (at_creation rank rankBound).1
  refine ⟨_, reached.trans (drives created rfl fun _ => .refl _), ?_, ?_⟩
  · rw [Function.update_self, (at_creation rank rankBound).2]
    rfl
  · intro other otherBound refused
    have different : other ≠ rank := by
      rintro rfl
      exact accepted refused
    rw [Function.update_of_ne different]
    refine ⟨(at_creation other otherBound).1.trans ?_, (at_creation other otherBound).2⟩
    change ((task.created other).allocate_communicated_table >>= _) >>= _ = _
    rw [task.allocate_of_refused refused]
    rfl

/-- Without grouping, the communication begins with sending the first buffer. -/
theorem begins_launch
    (gpu : Gpu)
    (memory : Memory)
    {rank : Nat}
    (rankBound : rank < n)
    {plan : GroupPlan}
    {more : List GroupPlan}
    (plans : task.plans = plan :: more)
    (uncompressed : plan.compression_method = .none)
    (ungrouped : task.group_by_batch = false) :
    ∃ rest, ((task.created rank).launch_communication gpu memory).Begins
      (.noted .start :: sendEvents (.plain plan.ptr) (plan.send_buffer rank)
        (plan.send_offsets rank) plan.item_size (task.layout.group rank) (task.communicator rank)
        (!task.explicit_copy_to_current_rank)) rest := by
  have buffers : (task.created rank).append_to_all_to_all_comm_buffers =
      plan.buffer rank :: more.map (·.buffer rank) := by
    rw [task.append_created rankBound, plans, List.map_cons]
  have grouping : (task.created rank).communicator.group_by_batch = false := ungrouped
  have method : (plan.buffer rank).compression_method = .none := uncompressed
  obtain ⟨rest, exchanged⟩ := @begins_exchange (.plain plan.ptr) (plan.send_buffer rank)
    (plan.send_offsets rank) (plan.recv_offsets rank) plan.item_size (task.layout.group rank)
    (task.communicator rank) (!task.explicit_copy_to_current_rank) ungrouped
  obtain ⟨rest, communicated⟩ : ∃ rest, (communicate_buffer gpu (task.created rank).comm_group
      (task.created rank).communicator (!(task.created rank).explicit_copy_to_current_rank)
      (plan.buffer rank)).Begins
        (.noted .start :: sendEvents (.plain plan.ptr) (plan.send_buffer rank)
          (plan.send_offsets rank) plan.item_size (task.layout.group rank)
          (task.communicator rank) (!task.explicit_copy_to_current_rank)) rest := by
    rw [communicate_buffer, method]
    exact ⟨_, exchanged.bind _⟩
  rw [AllToAllCommunicator.launch_communication, communicate_and_postprocess,
    communicate_buffers, all_to_all_comm, grouping, buffers, List.mapM_cons]
  exact ⟨_, ((((communicated.bind _).bind _).bind _).bind _).bind _⟩

end Redistribution

/-- Two ranks that join `2 ^ 30` rows each of one key, in domains of one rank. -/
def crowdedJoin : JoinCall 2 :=
  { bytesJoin 2 Nat.two_pos fun _ _ => List.replicate (2 ^ 30) 7 with nvlink_domain_size := 1 }

theorem alone_crowdedJoin : crowdedJoin.nvlink_partition_size = 1 := by
  have root : Nat.sqrt 2 = 1 := (Nat.eq_sqrt.mpr (by decide)).symm
  change get_nvl_partition_size 2 1 = 1
  simp [get_nvl_partition_size, ceil_sqrt, root, largest_size_below]

/-- All ranks shuffle in one group. -/
theorem infiniband_crowdedJoin : crowdedJoin.infiniband = .whole 2 Nat.two_pos := by
  simp only [JoinCall.infiniband, Layout.infiniband, Layout.whole, alone_crowdedJoin]

theorem sound_crowdedJoin (side : Side) (rank : Nat) :
    ((crowdedJoin.input side).table rank).Sound :=
  (Table.wellFormed_ofBytes (by rw [List.length_replicate]; omega)).sound

theorem partitioned_crowdedJoin :
    (crowdedJoin.shuffle_call .left).AllPartitioned sameHash (sorted_by_hash sameHash) :=
  Shuffle.allPartitioned_sorted_by_hash sameHash fun rank _ => sound_crowdedJoin .left rank

/-- The shuffle of the left tables. -/
def crowdedShuffle : Redistribution 2 := partitioned_crowdedJoin.redistribution

/-- The first rank is sent all rows. -/
theorem received_crowdedShuffle {rank : Nat} (rankBound : rank < 2) :
    crowdedShuffle.received_rows rank = if rank = 0 then 2 ^ 31 else 0 := by
  have sound : crowdedShuffle.Sound := partitioned_crowdedJoin.whole.toSound
  have gathered := partitioned_crowdedJoin.gathered_rows_of_first (fun _ => rfl) rankBound
  have layout : (crowdedJoin.shuffle_call .left).layout = .whole 2 Nat.two_pos :=
    infiniband_crowdedJoin
  have local_idx : (crowdedJoin.shuffle_call .left).layout.local_idx rank = rank := by
    rw [layout, Layout.local_idx_whole Nat.two_pos rankBound]
  have rows : ((crowdedJoin.shuffle_call .left).layout.group_rows
      (crowdedJoin.shuffle_call .left).input rank).length = 2 ^ 31 := by
    have each : ∀ source, ((crowdedJoin.shuffle_call .left).input source).rows.length = 2 ^ 30 := by
      intro source
      rw [Table.length_rows]
      exact (Int.toNat_natCast _).trans List.length_replicate
    rw [Layout.group_rows, List.length_flatMap, layout]
    simp only [each]
    rfl
  rw [← sound.length_gathered_rows rankBound, show (crowdedShuffle.gathered_rows rank).length = _
    from gathered.length_eq, local_idx]
  split
  · rw [rows]
    rfl
  · rfl

/-- If a rank cannot create its columns, others plan transfers that it does not expect. -/
theorem join_plans_differ_refused :
    HashPartition.Cuts (cudf_by_rows sameHash).hash_partition ∧
    (∀ side rank, rank < 2 → ((crowdedJoin.input side).table rank).Sound) ∧
    ¬ ∃ log : Nat → List (Event ranks), Dual 2 false log ∧
      ∀ state, Reaches (crowdedJoin.step (cudf_by_rows sameHash) fun _ _ _ _ => false)
          (crowdedJoin.start (cudf_by_rows sameHash) storingGpu) state →
        (∀ rank, rank < 2 → (state.calling rank).log <+: log rank ∧
          ((state.calling rank).process.Ended → (state.calling rank).log = log rank)) ∧
        ∃ finish, Reaches (crowdedJoin.step (cudf_by_rows sameHash) fun _ _ _ _ => false) state
            finish ∧
          ∀ rank, rank < 2 → (finish.calling rank).process.Ended := by
  refine ⟨cuts_sorted_by_hash sameHash, fun side rank _ => sound_crowdedJoin side rank, ?_⟩
  rintro ⟨log, dual, ends⟩
  have columns : 0 < crowdedShuffle.schema.length := Nat.one_pos
  have refused : crowdedShuffle.Refused 0 := crowdedShuffle.refused_of_rows Nat.two_pos columns
    (by rw [received_crowdedShuffle Nat.two_pos]; decide)
    (by rw [received_crowdedShuffle Nat.two_pos]; decide)
  have accepted : ¬ crowdedShuffle.Refused 1 := by
    rw [crowdedShuffle.refused_iff Nat.one_lt_two]
    rintro ⟨icol, icolBound, negative | ⟨string, _⟩⟩
    · rw [received_crowdedShuffle Nat.one_lt_two] at negative
      exact absurd negative (by decide)
    · obtain rfl : icol = 0 := Nat.lt_one_iff.mp icolBound
      exact TypeId.noConfusion string
  have plans : crowdedShuffle.plans = crowdedShuffle.data_plan 0 :: [] := rfl
  obtain ⟨rest, begins⟩ := crowdedShuffle.begins_launch storingGpu (crowdedShuffle.allocated 1)
    Nat.one_lt_two plans rfl rfl
  have several : crowdedJoin.nvlink_partition_size ≠ 2 := by
    rw [alone_crowdedJoin]
    decide
  obtain ⟨continuation, program⟩ := @JoinCall.exists_continuation 2 crowdedJoin
    (cudf_by_rows sameHash) storingGpu several
    (crowdedJoin.shuffleKept_of_cuts (cuts_sorted_by_hash sameHash))
  obtain ⟨state, reached, sends, fails⟩ := crowdedShuffle.reaches_launched
    (fun _ _ _ _ => false) storingGpu continuation Nat.one_lt_two accepted begins
  have start : (fun rank => crowdedShuffle.program storingGpu rank >>= continuation rank) =
      crowdedJoin.program (cudf_by_rows sameHash) storingGpu :=
    funext fun rank => (program rank).symm
  rw [start] at reached
  obtain ⟨failed, planned⟩ := fails 0 Nat.two_pos refused
  have ended : (state 0).process.Ended := by
    rw [failed]
    trivial
  obtain ⟨logs, _⟩ := ends _ (JoinState.reaches_of_calling reached
    (crowdedJoin.start (cudf_by_rows sameHash) storingGpu) rfl)
  have expected : log 0 = crowdedShuffle.createEvents 0 :=
    ((logs 0 Nat.two_pos).2 ended).symm.trans planned
  have nothing : recvTape 1 (log 0) = [] := by
    rw [expected]
    exact List.filterMap_eq_nil_iff.mpr fun event member =>
      (crowdedShuffle.silent_createEvents member 1).2
  have layout : crowdedShuffle.layout = .whole 2 Nat.two_pos := infiniband_crowdedJoin
  have sent : (.sent .communicator ((crowdedShuffle.layout.group 1).get_global_rank 0)
      (transferAt (.plain (.data 0)) ((crowdedShuffle.data_plan 0).send_buffer 1)
        (crowdedShuffle.offsets 1) 1 0) : Event ranks) ∈ log 1 := by
    refine (logs 1 Nat.one_lt_two).1.subset ?_
    change _ ∈ (state 1).log
    rw [sends]
    refine List.mem_append_right _ (List.mem_append_right _ (List.mem_cons_of_mem _ ?_))
    refine List.mem_map.mpr ⟨0, List.mem_filter.mpr ⟨?_, ?_⟩, rfl⟩
    · rw [layout]
      decide
    · rw [layout]
      decide
  rw [show (crowdedShuffle.layout.group 1).get_global_rank 0 = 0 by rw [layout]; rfl] at sent
  have tape : sendTape 0 (log 1) = [] :=
    (dual.matching 1 0 Nat.one_lt_two Nat.two_pos).trans nothing
  have token := List.filterMap_eq_nil_iff.mp tape _ sent
  contradiction

end DistributedJoin
