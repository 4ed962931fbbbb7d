import DistributedJoin.Join.NvlPartition
import DistributedJoin.Join.ShuffleOn

/-!
# The distributed join

Every rank shuffles its tables between the NVLink domains, partitions them and
exchanges them batch by batch inside its domain. A second thread joins a batch as soon
as its flag tells that both of its tables have been received.
-/

namespace DistributedJoin

open Device Spmd

/-- `cudf::inner_join`: for two tables and their key columns, the joined table. -/
abbrev InnerJoin := Table → Table → List Nat → List Nat → Table

/-- `cudf::concatenate`, which may refuse the tables. -/
abbrev Concatenate := List Table → Except String Table

/-- The functions on tables that the join calls. -/
structure Cudf where
  hash_partition : HashPartition
  inner_join : InnerJoin
  concatenate : Concatenate

/-- The seed for the partitions inside an NVLink domain. -/
def hash_partition_seed : Nat := 12345678

/-- The seed for the partitions between NVLink domains. -/
def hash_partition_seed_ib : Nat := 87654321

/-- Join two local tables. -/
def local_join_helper
    (inner_join : InnerJoin)
    (left right : Table)
    (left_on right_on : List Nat) : Table :=
  -- cuDF's inner join of an empty table would return the other one
  if left.num_rows ≠ 0 ∧ right.num_rows ≠ 0 then inner_join left right left_on right_on
  else []

/-- The offsets of the partitions of one batch, with the end of the last one. -/
def batch_offsets (offset : List Int) (nvlink_partition_size ibatch : Nat) : List Int :=
  let start_idx := ibatch * nvlink_partition_size
  let end_idx := (ibatch + 1) * nvlink_partition_size + 1
  (offset.drop start_idx).take (end_idx - start_idx)

/-- The communication of one batch. -/
structure Batch where
  ibatch : Nat
  left : AllToAllCommunicator
  right : AllToAllCommunicator

/-- The communication of one batch, with what has been written to the memory of its
tables. -/
structure AllocatedBatch where
  batch : Batch
  communicated_left : Memory
  communicated_right : Memory

/-- Construct the communicators of a batch. -/
def construct_batch
    (hashed_left hashed_right : Table)
    (left_offset right_offset : List Int)
    (nvlink_partition_size : Nat)
    (communicator : Communicator)
    (ibatch : Nat) : Process ranks Batch := do
  let left ← AllToAllCommunicator.create hashed_left
    (batch_offsets left_offset nvlink_partition_size ibatch)
    (.create communicator.mpi_rank nvlink_partition_size 1) communicator
    (generate_none_compression_options hashed_left) true
  let right ← AllToAllCommunicator.create hashed_right
    (batch_offsets right_offset nvlink_partition_size ibatch)
    (.create communicator.mpi_rank nvlink_partition_size 1) communicator
    (generate_none_compression_options hashed_right) true
  pure ⟨ibatch, left, right⟩

/-- Allocate the tables of a batch. -/
def allocate_batch (batch : Batch) : Process ranks AllocatedBatch := do
  let communicated_left ← batch.left.allocate_communicated_table
  let communicated_right ← batch.right.allocate_communicated_table
  pure ⟨batch, communicated_left, communicated_right⟩

/-- Communicate both tables of a batch and set its flag. -/
def launch_batch (gpu : Gpu) (allocated : AllocatedBatch) : Process ranks Unit := do
  let communicated_left ←
    allocated.batch.left.launch_communication gpu allocated.communicated_left
  Process.observe (I := ranks) (.communicated .left allocated.batch.ibatch communicated_left)
  let communicated_right ←
    allocated.batch.right.launch_communication gpu allocated.communicated_right
  Process.observe (I := ranks) (.communicated .right allocated.batch.ibatch communicated_right)
  Process.observe (I := ranks) (.flag allocated.batch.ibatch)

/-- Partition the tables and exchange the partitions batch by batch. -/
def communicate_batches
    (hash_partition : HashPartition)
    (gpu : Gpu)
    (left right : Table)
    (left_on right_on : List Nat)
    (nvlink_partition_size over_decom_factor : Nat)
    (communicator : Communicator) : Process ranks Unit := do
  let (hashed_left, left_offset) := hash_partition left left_on
    (nvlink_partition_size * over_decom_factor) .HASH_MURMUR3 hash_partition_seed
  let (hashed_right, right_offset) := hash_partition right right_on
    (nvlink_partition_size * over_decom_factor) .HASH_MURMUR3 hash_partition_seed
  let batches ← (List.range over_decom_factor).mapM
    (construct_batch hashed_left hashed_right (left_offset ++ [left.num_rows])
      (right_offset ++ [right.num_rows]) nvlink_partition_size communicator)
  let allocated ← batches.mapM allocate_batch
  let _ ← allocated.mapM (launch_batch gpu)
  pure ()

/-- Shuffle both tables between the NVLink domains. -/
def shuffle_in_infiniband_domain
    (hash_partition : HashPartition)
    (gpu : Gpu)
    (left right : Table)
    (left_on right_on : List Nat)
    (nvlink_partition_size : Nat)
    (communicator : Communicator)
    (left_compression_options right_compression_options : List ColumnCompressionOptions) :
    Process ranks (Table × Table) := do
  let shuffled_left_ib ← shuffle_on hash_partition gpu left left_on
    (.create communicator.mpi_rank communicator.mpi_size nvlink_partition_size) communicator
    left_compression_options .HASH_MURMUR3 hash_partition_seed_ib
  let shuffled_right_ib ← shuffle_on hash_partition gpu right right_on
    (.create communicator.mpi_rank communicator.mpi_size nvlink_partition_size) communicator
    right_compression_options .HASH_MURMUR3 hash_partition_seed_ib
  pure (shuffled_left_ib, shuffled_right_ib)

/-- What the calling thread does. It returns the join result if it joins the tables
itself, and nothing if it has to wait for the results of the other thread. -/
def distributed_inner_join
    (cudf : Cudf)
    (gpu : Gpu)
    (left right : Table)
    (left_on right_on : List Nat)
    (communicator : Communicator)
    (left_compression_options right_compression_options : List ColumnCompressionOptions)
    (over_decom_factor : Nat)
    (nvlink_domain_size : Int) : Process ranks (Option Table) := do
  let nvlink_partition_size :=
    get_nvl_partition_size communicator.mpi_size nvlink_domain_size
  let (left, right) ←
    if nvlink_partition_size ≠ communicator.mpi_size then
      shuffle_in_infiniband_domain cudf.hash_partition gpu left right left_on right_on
        nvlink_partition_size communicator left_compression_options right_compression_options
    else pure (left, right)
  if nvlink_partition_size = 1 then
    pure (some (local_join_helper cudf.inner_join left right left_on right_on))
  else do
    communicate_batches cudf.hash_partition gpu left right left_on right_on
      nvlink_partition_size over_decom_factor communicator
    pure none

/-- A table of a batch as it is found in memory: nothing before it has been received. -/
def communicated_table_of (side : Side) (ibatch : Nat) (log : List (Event ranks)) : Table :=
  (log.findSome? fun event =>
    match event with
    | .noted (.communicated communicated_side communicated_ibatch table) =>
        if communicated_side = side ∧ communicated_ibatch = ibatch then some table else none
    | _ => none).getD []

/-- Whether the flag of a batch has been set. -/
def flag_is_set (ibatch : Nat) (log : List (Event ranks)) : Bool :=
  log.any fun event =>
    match event with
    | .noted (.flag flagged) => flagged = ibatch
    | _ => false

/-- One turn of the loop of `inner_join_func`, for the first batch that has no result
yet. The thread waits as long as the flag of the batch is not set. -/
def inner_join_func
    (inner_join : InnerJoin)
    (left_on right_on : List Nat)
    (over_decom_factor : Nat)
    (log : List (Event ranks))
    (batch_join_results : List Table) : Option (List Table) :=
  let ibatch := batch_join_results.length
  if ibatch < over_decom_factor ∧ flag_is_set ibatch log then
    some (batch_join_results ++ [local_join_helper inner_join
      (communicated_table_of .left ibatch log) (communicated_table_of .right ibatch log)
      left_on right_on])
  else none

/-- The two threads of a rank. -/
inductive Thread
  /-- The thread that calls `distributed_inner_join`. -/
  | calling
  /-- The thread that runs `inner_join_func`. -/
  | inner_join
  deriving DecidableEq

/-- A state of all threads of all ranks. -/
structure JoinState where
  calling : Configuration ranks (Option Table)
  /-- The results of the batches that a rank has joined, in order. -/
  batch_join_results : Nat → List Table
  /-- What a call has returned or thrown at its end. -/
  returned : Nat → Option (Except String Table)

namespace JoinState

/-- All calls begin. -/
def start (program : Nat → Process ranks (Option Table)) : JoinState where
  calling := .start program
  batch_join_results := fun _ => []
  returned := fun _ => none

/-- What the call returns, once the results of all batches are there. -/
def join_result
    (concatenate : Concatenate)
    (over_decom_factor : Nat)
    (batch_join_results : List Table) : Option Table → Option (Except String Table)
  | some table => some (.ok table)
  | none =>
      if batch_join_results.length = over_decom_factor then
        some (concatenate batch_join_results)
      else none

/-- A thread of a rank takes its next step, if it has one. -/
def step
    (cudf : Cudf)
    (n : Nat)
    (eager : Eagerness ranks)
    (left_on right_on : List Nat)
    (over_decom_factor : Nat)
    (component : Fin n × Thread)
    (state : JoinState) : Option JoinState :=
  let rank := component.1
  match component.2 with
  | .calling =>
      match (state.calling rank).process with
      | .pure outcome =>
          if state.returned rank = none then
            (join_result cudf.concatenate over_decom_factor (state.batch_join_results rank)
              outcome).map fun result =>
                { state with returned := Function.update state.returned rank (some result) }
          else none
      | _ => (Configuration.step n eager rank state.calling).map fun calling =>
          { state with calling := calling }
  | .inner_join =>
      (inner_join_func cudf.inner_join left_on right_on over_decom_factor
        (state.calling rank).log (state.batch_join_results rank)).map fun results =>
          { state with
            batch_join_results := Function.update state.batch_join_results rank results }

end JoinState

end DistributedJoin
