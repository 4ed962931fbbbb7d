import DistributedJoin.Comm.Routes
import DistributedJoin.Join.DistributedInnerJoin

/-!
# The communication of the distributed join

One call of the join on all ranks is a shuffle of both tables followed by two
redistributions for every batch. Whatever the partitions are, the ranks plan the same
transfers.
-/

namespace DistributedJoin

open Device Spmd

/-- One of the two tables of a join on all ranks. -/
structure JoinTable (n : Nat) where
  schema : List DataType
  table : Nat → Table
  /-- All ranks have tables of the same schema. -/
  same_schema : ∀ rank, rank < n → (table rank).schema = schema
  on_columns : List Nat
  options : List ColumnCompressionOptions

/-- Options that turn compression off for all columns of a schema. -/
def none_options (schema : List DataType) : List ColumnCompressionOptions :=
  schema.map fun dtype =>
    if dtype.id = .STRING then .mk .none ⟨0, 0, 0⟩ [.none, .none] else .none

theorem generate_none_compression_options_eq (table : Table) :
    generate_none_compression_options table = none_options table.schema := by
  rw [none_options, Table.schema, List.map_map]
  rfl

/-- The options leave a column and its subcolumns uncompressed. -/
def ColumnCompressionOptions.Off (options : ColumnCompressionOptions) : Prop :=
  options.compression_method = .none ∧
    ∀ index, (options.child index).compression_method = .none

theorem off_none_options (schema : List DataType) (icol : Nat) :
    ((none_options schema).getD icol .none).Off := by
  have fixed : ColumnCompressionOptions.none.Off := ⟨rfl, fun _ => rfl⟩
  have string : (ColumnCompressionOptions.mk .none ⟨0, 0, 0⟩ [.none, .none]).Off := by
    refine ⟨rfl, fun index => ?_⟩
    match index with
    | 0 => rfl
    | 1 => rfl
    | _ + 2 => rfl
  rcases Nat.lt_or_ge icol schema.length with inside | outside
  · rw [none_options, List.getD_eq_getElem _ _ (by simpa using inside), List.getElem_map]
    split
    · exact string
    · exact fixed
  · rw [List.getD_eq_default _ _ (by simpa [none_options] using outside)]
    exact fixed

namespace JoinTable

variable {n : Nat} (input : JoinTable n) (hash_partition : HashPartition)

/-- The partitions of a rank. -/
def hashed (num_partitions hash_seed rank : Nat) : Table × List Int :=
  hash_partition (input.table rank) input.on_columns num_partitions .HASH_MURMUR3 hash_seed

/-- The partitions have the columns of the tables. -/
def Kept (num_partitions hash_seed : Nat) : Prop :=
  ∀ rank, rank < n →
    (input.hashed hash_partition num_partitions hash_seed rank).1.schema = input.schema

variable {input hash_partition}

/-- The communication of the shuffle between NVLink domains. -/
def infiniband
    {layout : Layout n}
    (kept : input.Kept hash_partition layout.group_size hash_partition_seed_ib)
    (group_by_batch : Bool) : Redistribution n where
  layout := layout
  schema := input.schema
  table := fun rank =>
    (input.hashed hash_partition layout.group_size hash_partition_seed_ib rank).1
  same_schema := kept
  offsets := fun rank =>
    (input.hashed hash_partition layout.group_size hash_partition_seed_ib rank).2 ++
      [(input.hashed hash_partition layout.group_size hash_partition_seed_ib rank).1.num_rows]
  options := input.options
  group_by_batch := group_by_batch
  explicit_copy_to_current_rank := true

theorem sound_infiniband
    {layout : Layout n}
    (kept : input.Kept hash_partition layout.group_size hash_partition_seed_ib)
    (group_by_batch : Bool)
    (cut : ∀ rank, rank < n → Cut layout.group_size (input.table rank)
      (input.hashed hash_partition layout.group_size hash_partition_seed_ib rank).1
      (input.hashed hash_partition layout.group_size hash_partition_seed_ib rank).2)
    (sound : ∀ rank, rank < n → (input.table rank).Sound) :
    (infiniband kept group_by_batch).Sound where
  sound_tables := fun rank rankBound => (cut rank rankBound).sound (sound rank rankBound)
  offsets_length := fun rank rankBound =>
    List.length_append.trans (congrArg (· + 1) (cut rank rankBound).offsets_length)
  offsets_sorted := by
    intro rank rankBound
    refine List.pairwise_append.mpr ⟨(cut rank rankBound).offsets_sorted,
      List.pairwise_singleton _ _, fun offset member last lastMember => ?_⟩
    obtain rfl := List.mem_singleton.mp lastMember
    exact ((cut rank rankBound).offsets_inside (sound rank rankBound) offset member).2
  offsets_inside := by
    intro rank rankBound offset member
    rcases List.mem_append.mp member with before | last
    · exact (cut rank rankBound).offsets_inside (sound rank rankBound) offset before
    · obtain rfl := List.mem_singleton.mp last
      exact ⟨((cut rank rankBound).sound (sound rank rankBound)).num_rows_nonneg, Int.le_refl _⟩

/-- The table after the shuffle. -/
def shuffled
    {layout : Layout n}
    (kept : input.Kept hash_partition layout.group_size hash_partition_seed_ib)
    (group_by_batch : Bool)
    (gpu : Gpu) : JoinTable n where
  schema := input.schema
  table := (infiniband kept group_by_batch).communicated gpu
  same_schema := fun _ rankBound => (infiniband kept group_by_batch).schema_communicated gpu rankBound
  on_columns := input.on_columns
  options := input.options

end JoinTable

/-- One collective call of `distributed_inner_join`. -/
structure JoinCall (n : Nat) where
  n_pos : 0 < n
  input : Side → JoinTable n
  group_by_batch : Bool
  over_decom_factor : Nat
  over_decom_factor_pos : 0 < over_decom_factor
  nvlink_domain_size : Int

namespace JoinCall

variable {n : Nat} (join : JoinCall n) (hash_partition : HashPartition)

/-- The number of ranks of an NVLink domain. -/
def nvlink_partition_size : Nat := get_nvl_partition_size n join.nvlink_domain_size

/-- The groups of the shuffle. -/
def infiniband : Layout n :=
  .infiniband join.nvlink_partition_size join.n_pos (get_nvl_partition_size_dvd _ _)

/-- The groups of the exchange of batches. -/
def nvlink : Layout n :=
  .nvlink join.nvlink_partition_size join.n_pos (get_nvl_partition_size_dvd _ _)

/-- The number of partitions that are exchanged in batches. -/
def num_partitions : Nat := join.nvlink_partition_size * join.over_decom_factor

/-- The call of `shuffle_on` for one of the tables. -/
def shuffle_call (side : Side) : Shuffle n where
  layout := join.infiniband
  schema := (join.input side).schema
  input := (join.input side).table
  same_schema := (join.input side).same_schema
  on_columns := (join.input side).on_columns
  options := (join.input side).options
  group_by_batch := join.group_by_batch
  hash_function := .HASH_MURMUR3
  hash_seed := hash_partition_seed_ib

/-- What the calling threads do. -/
def program (cudf : Cudf) (gpu : Gpu) (rank : Nat) : Process ranks (Option Table) :=
  distributed_inner_join cudf gpu ((join.input .left).table rank)
    ((join.input .right).table rank) (join.input .left).on_columns
    (join.input .right).on_columns (communicatorOf n join.group_by_batch rank)
    (join.input .left).options (join.input .right).options join.over_decom_factor
    join.nvlink_domain_size

/-- The partitions of the shuffle have the columns of the tables. -/
def ShuffleKept : Prop :=
  ∀ side, (join.input side).Kept hash_partition join.infiniband.group_size
    hash_partition_seed_ib

/-- The partitions of the batches have the columns of the tables. -/
def BatchesKept : Prop :=
  ∀ side, (join.input side).Kept hash_partition join.num_partitions hash_partition_seed

variable {join hash_partition}

/-- The shuffle of one of the tables. -/
def shuffle (kept : join.ShuffleKept hash_partition) (side : Side) : Redistribution n :=
  JoinTable.infiniband (kept side) join.group_by_batch

/-- The call with the tables after the shuffle. -/
def shuffled (kept : join.ShuffleKept hash_partition) (gpu : Gpu) : JoinCall n :=
  { join with input := fun side => JoinTable.shuffled (kept side) join.group_by_batch gpu }

/-- The exchange of one batch of one of the tables. -/
def batch
    (kept : join.BatchesKept hash_partition)
    (side : Side)
    (ibatch : Nat) : Redistribution n where
  layout := join.nvlink
  schema := (join.input side).schema
  table := fun rank =>
    ((join.input side).hashed hash_partition join.num_partitions hash_partition_seed rank).1
  same_schema := kept side
  offsets := fun rank =>
    batch_offsets
      (((join.input side).hashed hash_partition join.num_partitions hash_partition_seed rank).2 ++
        [((join.input side).table rank).num_rows])
      join.nvlink_partition_size ibatch
  options := none_options (join.input side).schema
  group_by_batch := join.group_by_batch
  explicit_copy_to_current_rank := true

section Shuffle

variable {eager : Eagerness ranks} (kept : join.ShuffleKept hash_partition) (gpu : Gpu)

/-- All columns of the shuffled tables can be created. -/
def ShuffleAllocates : Prop := ∀ side, (shuffle kept side).Allocates

/-- The shuffle of both tables on all ranks, if both can be sent. -/
theorem attempt_shuffle
    (supported : ∀ side, (shuffle kept side).Supported)
    (narrow : ∀ side, (shuffle kept side).Narrow) :
    Attempt (ShuffleAllocates kept) n eager (Arrivals.none ranks)
      (fun rank => shuffle_in_infiniband_domain hash_partition gpu
        ((join.input .left).table rank) ((join.input .right).table rank)
        (join.input .left).on_columns (join.input .right).on_columns
        join.nvlink_partition_size (communicatorOf n join.group_by_batch rank)
        (join.input .left).options (join.input .right).options)
      (Arrivals.none ranks)
      (.ok fun rank =>
        ((shuffle kept .left).communicated gpu rank,
          (shuffle kept .right).communicated gpu rank))
      (fun rank => (shuffle kept .left).events gpu rank ++
        (shuffle kept .right).events gpu rank) := by
  have shuffles : ∀ side, Attempt (ShuffleAllocates kept) n eager (Arrivals.none ranks) _ _ _ _ :=
    fun side => ((shuffle kept side).attempt_program gpu (supported side) (narrow side)).mono
      fun allocates => allocates side
  exact (shuffles .left).bind ((shuffles .right).map fun rank right =>
    ((shuffle kept .left).communicated gpu rank, right))

/-- The shuffle of both tables on all ranks. -/
theorem planned_shuffle (narrow : ∀ side, (shuffle kept side).Narrow) :
    Planned (ShuffleAllocates kept) n eager join.group_by_batch
      (fun rank => shuffle_in_infiniband_domain hash_partition gpu
        ((join.input .left).table rank) ((join.input .right).table rank)
        (join.input .left).on_columns (join.input .right).on_columns
        join.nvlink_partition_size (communicatorOf n join.group_by_batch rank)
        (join.input .left).options (join.input .right).options)
      (fun rank =>
        ((shuffle kept .left).communicated gpu rank,
          (shuffle kept .right).communicated gpu rank)) := by
  have shuffles : ∀ side, Planned (ShuffleAllocates kept) n eager join.group_by_batch _ _ :=
    fun side => ((shuffle kept side).planned_program gpu (narrow side)).mono
      fun allocates => allocates side
  exact (shuffles .left).bind ((shuffles .right).map
    fun rank right => ((shuffle kept .left).communicated gpu rank, right))

end Shuffle

section Batches

variable {eager : Eagerness ranks} (kept : join.BatchesKept hash_partition) (gpu : Gpu)

/-- Batches are not compressed. -/
theorem uncompressed_batch (side : Side) (ibatch : Nat) :
    ∀ plan ∈ (batch kept side ibatch).plans, plan.compression_method = .none := by
  intro plan member
  obtain ⟨icol, _, column⟩ := List.mem_flatMap.mp member
  have off : ((batch kept side ibatch).column_options icol).Off := off_none_options _ icol
  split at column
  · rcases List.mem_cons.mp column with rfl | column
    · exact off.2 0
    · obtain rfl := List.mem_singleton.mp column
      exact off.2 1
  · obtain rfl := List.mem_singleton.mp column
    exact off.1

theorem supported_batch (side : Side) (ibatch : Nat) : (batch kept side ibatch).Supported :=
  fun plan member => .inl (uncompressed_batch kept side ibatch plan member)

theorem narrow_batch (side : Side) (ibatch : Nat) : (batch kept side ibatch).Narrow := by
  intro plan member cascaded
  rw [uncompressed_batch kept side ibatch plan member] at cascaded
  contradiction

/-- What a rank does when the communicators of a batch are constructed. -/
def constructEvents (ibatch rank : Nat) : List (Event ranks) :=
  (batch kept .left ibatch).createEvents rank ++ (batch kept .right ibatch).createEvents rank

/-- What a rank does when the tables of a batch are allocated. -/
def allocateEvents (ibatch rank : Nat) : List (Event ranks) :=
  (batch kept .left ibatch).allocateEvents rank ++
    (batch kept .right ibatch).allocateEvents rank

/-- What a rank does when a batch is communicated. -/
def launchEvents (ibatch rank : Nat) : List (Event ranks) :=
  (batch kept .left ibatch).launchEvents gpu rank ++
    ([.noted (.communicated .left ibatch ((batch kept .left ibatch).communicated gpu rank))] ++
      ((batch kept .right ibatch).launchEvents gpu rank ++
        ([.noted (.communicated .right ibatch
            ((batch kept .right ibatch).communicated gpu rank))] ++
          [.noted (.flag ibatch)])))

/-- What a rank does in the exchange of all batches. -/
def batchesEvents (rank : Nat) : List (Event ranks) :=
  (List.range join.over_decom_factor).flatMap (fun ibatch => constructEvents kept ibatch rank) ++
    ((List.range join.over_decom_factor).flatMap (fun ibatch => allocateEvents kept ibatch rank) ++
      (List.range join.over_decom_factor).flatMap fun ibatch =>
        launchEvents kept gpu ibatch rank)

/-- A batch with the communicators of a rank. -/
def constructed (ibatch rank : Nat) : Batch :=
  ⟨ibatch, (batch kept .left ibatch).created rank, (batch kept .right ibatch).created rank⟩

/-- A batch with the memory of its tables. -/
def allocated (ibatch rank : Nat) : AllocatedBatch :=
  ⟨constructed kept ibatch rank, (batch kept .left ibatch).allocated rank,
    (batch kept .right ibatch).allocated rank⟩

/-- The construction of a batch on all ranks. -/
theorem phase_construct_batch (ibatch : Nat) :
    Phase n eager (Arrivals.none ranks)
      (fun rank => construct_batch
        ((join.input .left).hashed hash_partition join.num_partitions hash_partition_seed rank).1
        ((join.input .right).hashed hash_partition join.num_partitions hash_partition_seed rank).1
        (((join.input .left).hashed hash_partition join.num_partitions hash_partition_seed
            rank).2 ++ [((join.input .left).table rank).num_rows])
        (((join.input .right).hashed hash_partition join.num_partitions hash_partition_seed
            rank).2 ++ [((join.input .right).table rank).num_rows])
        join.nvlink_partition_size (communicatorOf n join.group_by_batch rank) ibatch)
      (Arrivals.none ranks) (.ok (constructed kept ibatch)) (constructEvents kept ibatch) := by
  let create : Side → Nat → Process ranks AllToAllCommunicator := fun side rank =>
    AllToAllCommunicator.create ((batch kept side ibatch).table rank)
      ((batch kept side ibatch).offsets rank)
      (join.nvlink.group rank) (communicatorOf n join.group_by_batch rank)
      (batch kept side ibatch).options true
  have created : ∀ side, Phase n eager (Arrivals.none ranks) (create side)
      (Arrivals.none ranks) _ _ := fun side => (batch kept side ibatch).phase_create
  have composed : Phase n eager (Arrivals.none ranks)
      (fun rank => do
        let left ← create .left rank
        let right ← create .right rank
        Process.pure (⟨ibatch, left, right⟩ : Batch))
      _ _ (constructEvents kept ibatch) :=
    (created .left).bind ((created .right).map fun rank right =>
      (⟨ibatch, (batch kept .left ibatch).created rank, right⟩ : Batch))
  refine composed.congr fun rank rankBound => ?_
  have options : ∀ side, generate_none_compression_options
      ((join.input side).hashed hash_partition join.num_partitions hash_partition_seed rank).1 =
        (batch kept side ibatch).options := by
    intro side
    rw [generate_none_compression_options_eq, kept side rank rankBound]
    rfl
  rw [construct_batch, options .left, options .right]
  rfl

/-- All columns of the tables of the batches can be created. -/
def BatchesAllocate : Prop :=
  ∀ side ibatch, ibatch < join.over_decom_factor → (batch kept side ibatch).Allocates

/-- The allocation of the tables of a batch on all ranks. -/
theorem attempt_allocate_batch {ibatch : Nat} (ibatchBound : ibatch < join.over_decom_factor) :
    Attempt (BatchesAllocate kept) n eager (Arrivals.none ranks)
      (fun rank => allocate_batch (constructed kept ibatch rank))
      (Arrivals.none ranks) (.ok (allocated kept ibatch)) (allocateEvents kept ibatch) := by
  have attempts : ∀ side, Attempt (BatchesAllocate kept) n eager (Arrivals.none ranks) _ _ _ _ :=
    fun side => (batch kept side ibatch).attempt_allocate.mono
      fun allocates => allocates side ibatch ibatchBound
  exact (attempts .left).bind ((attempts .right).map fun rank right =>
    (⟨constructed kept ibatch rank, (batch kept .left ibatch).allocated rank, right⟩ :
      AllocatedBatch))

/-- The communication of a batch on all ranks. -/
theorem phase_launch_batch (ibatch : Nat) :
    Phase n eager (Arrivals.none ranks) (fun rank => launch_batch gpu (allocated kept ibatch rank))
      (Arrivals.none ranks) (.ok fun _ => ()) (launchEvents kept gpu ibatch) := by
  have launched : ∀ side, Phase n eager (Arrivals.none ranks)
      (fun rank => ((batch kept side ibatch).created rank).launch_communication gpu
        ((batch kept side ibatch).allocated rank))
      (Arrivals.none ranks) (.ok ((batch kept side ibatch).communicated gpu))
      ((batch kept side ibatch).launchEvents gpu) := fun side =>
    (batch kept side ibatch).phase_launch gpu (supported_batch kept side ibatch)
      (narrow_batch kept side ibatch) (batch kept side ibatch).allocated
  have noted : ∀ observation : Nat → Note, Phase n eager (Arrivals.none ranks)
      (fun rank => Process.observe (I := ranks) (observation rank)) (Arrivals.none ranks)
      (.ok fun _ => ()) (fun rank => [.noted (observation rank)]) := fun observation =>
    Phase.observe (I := ranks) observation
  exact (launched .left).bind ((noted fun rank => .communicated .left ibatch _).seq
    ((launched .right).bind ((noted fun rank => .communicated .right ibatch _).seq
      (noted fun _ => .flag ibatch))))

/-- The exchange of all batches on all ranks. -/
theorem attempt_communicate_batches :
    Attempt (BatchesAllocate kept) n eager (Arrivals.none ranks)
      (fun rank => communicate_batches hash_partition gpu ((join.input .left).table rank)
        ((join.input .right).table rank) (join.input .left).on_columns
        (join.input .right).on_columns join.nvlink_partition_size join.over_decom_factor
        (communicatorOf n join.group_by_batch rank))
      (Arrivals.none ranks) (.ok fun _ => ()) (batchesEvents kept gpu) := by
  let batches := List.range join.over_decom_factor
  have constructs : Phase n eager (Arrivals.none ranks) _ _ _ _ :=
    Phase.mapM batches fun ibatch _ => phase_construct_batch kept ibatch
  have allocates : Attempt (BatchesAllocate kept) n eager (Arrivals.none ranks)
      (fun rank => (batches.map fun ibatch => constructed kept ibatch rank).mapM allocate_batch)
      _ _ _ :=
    (Attempt.mapM batches fun ibatch range =>
      attempt_allocate_batch kept (List.mem_range.mp range)).congr fun _ _ => List.mapM_map
  have launches : Phase n eager (Arrivals.none ranks)
      (fun rank => (batches.map fun ibatch => allocated kept ibatch rank).mapM
        (launch_batch gpu)) _ _ _ :=
    (Phase.mapM batches fun ibatch _ => phase_launch_batch kept gpu ibatch).congr
      fun _ _ => List.mapM_map
  have launched : Phase n eager (Arrivals.none ranks)
      (fun rank => do
        let _ ← (batches.map fun ibatch => allocated kept ibatch rank).mapM (launch_batch gpu)
        Process.pure ())
      _ _ _ := launches.map fun _ _ => ()
  have allocated : Attempt (BatchesAllocate kept) n eager (Arrivals.none ranks)
      (fun rank => do
        let allocated ← (batches.map fun ibatch =>
          constructed kept ibatch rank).mapM allocate_batch
        let _ ← allocated.mapM (launch_batch gpu)
        Process.pure ())
      _ _ _ := allocates.bind launched.attempt
  exact constructs.attempt.bind allocated

/-- The plans for the batches are dual. -/
theorem dual_batchesEvents : Dual n join.group_by_batch (batchesEvents kept gpu) := by
  have silent : ∀ observation : Nat → Note, (∀ rank, observation rank ≠ .start) →
      Dual n join.group_by_batch fun rank => [.noted (observation rank)] := by
    intro observation other
    refine .of_silent fun rank _ event member peer => ?_
    obtain rfl := List.mem_singleton.mp member
    have differs := other rank
    cases found : observation rank with
    | start => contradiction
    | copied => exact ⟨rfl, rfl⟩
    | returned => exact ⟨rfl, rfl⟩
    | communicated => exact ⟨rfl, rfl⟩
    | flag => exact ⟨rfl, rfl⟩
  refine (Dual.flatMap fun ibatch _ => ?_).append
    ((Dual.flatMap fun ibatch _ => ?_).append (Dual.flatMap fun ibatch _ => ?_))
  · exact ((batch kept .left ibatch).dual_createEvents _).append
      ((batch kept .right ibatch).dual_createEvents _)
  · exact ((batch kept .left ibatch).dual_allocateEvents _).append
      ((batch kept .right ibatch).dual_allocateEvents _)
  · exact ((batch kept .left ibatch).dual_launchEvents gpu).append
      ((silent _ fun _ => Note.noConfusion).append
        (((batch kept .right ibatch).dual_launchEvents gpu).append
          ((silent _ fun _ => Note.noConfusion).append (silent _ fun _ => Note.noConfusion))))

end Batches

section Program

variable (join)

/-- The tables of a rank. -/
def tables (rank : Nat) : Table × Table :=
  ((join.input .left).table rank, (join.input .right).table rank)

/-- What the calling threads do after the shuffle. -/
def remainder
    (cudf : Cudf)
    (gpu : Gpu)
    (rank : Nat)
    (tables : Table × Table) : Process ranks (Option Table) :=
  if join.nvlink_partition_size = 1 then
    pure (some (local_join_helper cudf.inner_join tables.1 tables.2
      (join.input .left).on_columns (join.input .right).on_columns))
  else do
    communicate_batches cudf.hash_partition gpu tables.1 tables.2
      (join.input .left).on_columns (join.input .right).on_columns
      join.nvlink_partition_size join.over_decom_factor
      (communicatorOf n join.group_by_batch rank)
    pure none

/-- What the calling threads end with. -/
def outcome (cudf : Cudf) (rank : Nat) : Option Table :=
  if join.nvlink_partition_size = 1 then
    some (local_join_helper cudf.inner_join (join.tables rank).1 (join.tables rank).2
      (join.input .left).on_columns (join.input .right).on_columns)
  else none

theorem num_partitions_pos : 0 < join.num_partitions :=
  Nat.mul_pos (Nat.pos_of_dvd_of_pos (get_nvl_partition_size_dvd _ _) join.n_pos)
    join.over_decom_factor_pos

theorem shuffleKept_of_cuts (cuts : HashPartition.Cuts hash_partition) :
    join.ShuffleKept hash_partition := fun side rank rankBound =>
  (cuts _ _ _ _ _ join.infiniband.group_size_pos).schema.trans
    ((join.input side).same_schema rank rankBound)

theorem batchesKept_of_cuts (cuts : HashPartition.Cuts hash_partition) :
    join.BatchesKept hash_partition := fun side rank rankBound =>
  (cuts _ _ _ _ _ join.num_partitions_pos).schema.trans
    ((join.input side).same_schema rank rankBound)

variable {join} {eager : Eagerness ranks} {cudf : Cudf} (gpu : Gpu)

/-- With one NVLink domain there is no shuffle. -/
theorem program_of_eq (single : join.nvlink_partition_size = n) (rank : Nat) :
    join.program cudf gpu rank = join.remainder cudf gpu rank (join.tables rank) := by
  have size : get_nvl_partition_size (communicatorOf n join.group_by_batch rank).mpi_size
      join.nvlink_domain_size = (communicatorOf n join.group_by_batch rank).mpi_size := single
  rw [program, distributed_inner_join, if_neg (not_not.mpr size)]
  rfl

/-- With several NVLink domains the tables are shuffled first. -/
theorem program_of_ne (several : join.nvlink_partition_size ≠ n) (rank : Nat) :
    join.program cudf gpu rank =
      shuffle_in_infiniband_domain cudf.hash_partition gpu ((join.input .left).table rank)
          ((join.input .right).table rank) (join.input .left).on_columns
          (join.input .right).on_columns join.nvlink_partition_size
          (communicatorOf n join.group_by_batch rank) (join.input .left).options
          (join.input .right).options >>=
        join.remainder cudf gpu rank := by
  have size : get_nvl_partition_size (communicatorOf n join.group_by_batch rank).mpi_size
      join.nvlink_domain_size ≠ (communicatorOf n join.group_by_batch rank).mpi_size := several
  rw [program, distributed_inner_join, if_pos size]
  rfl

/-- With several NVLink domains the left tables are shuffled first. -/
theorem exists_continuation
    (several : join.nvlink_partition_size ≠ n)
    (kept : join.ShuffleKept cudf.hash_partition) :
    ∃ continuation : Nat → Table → Process ranks (Option Table),
      ∀ rank, join.program cudf gpu rank =
        (shuffle kept .left).program gpu rank >>= continuation rank :=
  ⟨_, fun rank => (program_of_ne gpu several rank).trans (Process.bind_bind _ _ _)⟩

/-- What follows the shuffle does not depend on it. -/
theorem remainder_shuffled
    (kept : join.ShuffleKept cudf.hash_partition)
    {rank : Nat}
    {tables : Table × Table} :
    join.remainder cudf gpu rank tables = (shuffled kept gpu).remainder cudf gpu rank tables :=
  rfl

/-- The exchange of the batches, if there is one, on all ranks. -/
theorem planned_remainder
    (kept : join.nvlink_partition_size ≠ 1 → join.BatchesKept cudf.hash_partition) :
    Planned (∀ several, BatchesAllocate (kept several)) n eager join.group_by_batch
      (fun rank => join.remainder cudf gpu rank (join.tables rank)) (join.outcome cudf) := by
  by_cases alone : join.nvlink_partition_size = 1
  · refine (Planned.pure (join.outcome cudf)).congr fun rank _ => ?_
    rw [remainder, outcome, if_pos alone, if_pos alone]
    rfl
  · have exchanged : Planned (BatchesAllocate (kept alone)) n eager join.group_by_batch _ _ :=
      (Planned.of_attempt (attempt_communicate_batches (kept alone) gpu)
        (dual_batchesEvents (kept alone) gpu)).map fun rank _ => join.outcome cudf rank
    refine (exchanged.congr fun rank _ => ?_).mono fun allocates => allocates alone
    rw [remainder, outcome, if_neg alone, if_neg alone]
    rfl

variable (join) (cudf) in
/-- All columns that the call asks for can be created: those of the shuffled tables if there
are several domains, and those of the batches if ranks exchange any. -/
def Allocates : Prop :=
  if join.nvlink_partition_size = n then
    join.nvlink_partition_size ≠ 1 →
      ∀ kept : join.BatchesKept cudf.hash_partition, BatchesAllocate kept
  else
    ∀ kept : join.ShuffleKept cudf.hash_partition, ShuffleAllocates kept ∧
      (join.nvlink_partition_size ≠ 1 →
        ∀ later : (shuffled kept gpu).BatchesKept cudf.hash_partition, BatchesAllocate later)

/-- The whole call on all ranks, whatever its tables contain. -/
theorem planned_program
    (cuts : HashPartition.Cuts cudf.hash_partition)
    (sound : ∀ side rank, rank < n → ((join.input side).table rank).Sound) :
    ∃ result, Planned (join.Allocates cudf gpu) n eager join.group_by_batch
      (join.program cudf gpu) result := by
  by_cases single : join.nvlink_partition_size = n
  · have planned : Planned _ n eager join.group_by_batch _ _ :=
      (planned_remainder gpu fun _ => batchesKept_of_cuts join cuts).congr
        fun rank _ => program_of_eq gpu single rank
    refine ⟨_, planned.mono fun allocates several => ?_⟩
    rw [Allocates, if_pos single] at allocates
    exact allocates several _
  · let kept := shuffleKept_of_cuts join cuts
    have narrow : ∀ side, (shuffle kept side).Narrow := fun side =>
      (JoinTable.sound_infiniband (kept side) join.group_by_batch
        (fun _ _ => cuts _ _ _ _ _ join.infiniband.group_size_pos) (sound side)).narrow
    let later := shuffled kept gpu
    have parts : join.Allocates cudf gpu → ShuffleAllocates kept ∧
        (later.nvlink_partition_size ≠ 1 → BatchesAllocate (later.batchesKept_of_cuts cuts)) := by
      intro allocates
      rw [Allocates, if_neg single] at allocates
      exact ⟨(allocates kept).1, fun several => (allocates kept).2 several _⟩
    have remaining : Planned (join.Allocates cudf gpu) n eager later.group_by_batch
        (fun rank => later.remainder cudf gpu rank (later.tables rank)) (later.outcome cudf) :=
      (planned_remainder gpu fun _ => later.batchesKept_of_cuts cuts).mono
        fun allocates several => (parts allocates).2 several
    have shuffles : Planned (join.Allocates cudf gpu) n eager join.group_by_batch _ _ :=
      (planned_shuffle kept gpu narrow).mono fun allocates => (parts allocates).1
    exact ⟨_, (shuffles.bind (remaining.congr
      fun _ _ => remainder_shuffled gpu kept)).congr fun rank _ => program_of_ne gpu single rank⟩

end Program

end JoinCall

end DistributedJoin
