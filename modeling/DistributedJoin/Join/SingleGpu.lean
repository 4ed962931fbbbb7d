import DistributedJoin.Join.JoinResults

/-!
# Comparing against a single GPU

Two tables of the root are distributed over all ranks and joined, and the root collects the
results of all ranks. The root compares them with the join that it has calculated itself.
-/

namespace DistributedJoin

open Device Spmd

/-- Distribute two tables of the root and join the local tables. -/
def distribute_and_join
    (cudf : Cudf)
    (gpu : Gpu)
    (build_view probe_view : Table)
    (build_on probe_on : List Nat)
    (communicator : Communicator)
    (build_compression_options probe_compression_options : List ColumnCompressionOptions)
    (over_decomposition_factor : Nat)
    (nvlink_domain_size : Int) : Process ranks (Option Table) := do
  let local_build ← distribute_table gpu build_view communicator
  let local_probe ← distribute_table gpu probe_view communicator
  distributed_inner_join cudf gpu local_build local_probe build_on probe_on communicator
    build_compression_options probe_compression_options over_decomposition_factor
    nvlink_domain_size

/-- Send the join result of all ranks to the root, unless the join has thrown. -/
def collect_result
    (gpu : Gpu)
    (communicator : Communicator) : Except String Table → Process ranks (Option Table)
  | .ok join_result_all_ranks => collect_tables gpu join_result_all_ranks communicator
  | .error reason => .fail reason

/-- The parameters of `run_test` on all ranks. -/
structure TestRun (n : Nat) where
  n_pos : 0 < n
  /-- The build and the probe table. The views of the workers are not used. -/
  view : Side → Nat → Table
  on_columns : Side → List Nat
  compression_options : Side → List ColumnCompressionOptions
  group_by_batch : Bool
  over_decomposition_factor : Nat
  over_decomposition_factor_pos : 0 < over_decomposition_factor
  nvlink_domain_size : Int

namespace TestRun

section Program

variable {n : Nat} (run : TestRun n) (cudf : Cudf) (gpu : Gpu) (eager : Eagerness ranks)

/-- What the calling threads do until the end of the communication of the join. -/
def program (rank : Nat) : Process ranks (Option Table) :=
  distribute_and_join cudf gpu (run.view .left rank) (run.view .right rank) (run.on_columns .left)
    (run.on_columns .right) (communicatorOf n run.group_by_batch rank)
    (run.compression_options .left) (run.compression_options .right)
    run.over_decomposition_factor run.nvlink_domain_size

/-- All ranks begin the test. -/
def start : ProgramState (Option Table) := .start (run.program cudf gpu)

/-- A thread of a rank takes its next step in the test. -/
def step : Fin n × Thread → ProgramState (Option Table) → Option (ProgramState (Option Table)) :=
  ProgramState.step cudf n eager (run.on_columns .left) (run.on_columns .right)
    run.over_decomposition_factor
    fun rank => collect_result gpu (communicatorOf n run.group_by_batch rank)

/-- The join on a single GPU. -/
def reference : Table :=
  cudf.inner_join (run.view .left 0) (run.view .right 0) (run.on_columns .left)
    (run.on_columns .right)

/-- The number of ranks of an NVLink domain. -/
def nvlink_partition_size : Nat := get_nvl_partition_size n run.nvlink_domain_size

/-- Whether a row is joined on a rank, in a batch. -/
def Meets
    (hash : HashId → Nat → List Cell → Nat)
    (rank ibatch : Nat)
    (side : Side)
    (row : Row) : Prop :=
  let key := keyOf (run.on_columns side) row
  hash .HASH_MURMUR3 hash_partition_seed_ib key % (n / run.nvlink_partition_size) =
      rank / run.nvlink_partition_size ∧
    (run.nvlink_partition_size ≠ 1 →
      hash .HASH_MURMUR3 hash_partition_seed key %
          (run.nvlink_partition_size * run.over_decomposition_factor) =
        ibatch * run.nvlink_partition_size + rank % run.nvlink_partition_size)

/-- On every rank, rows of both tables are joined in every batch. -/
def MeetsRows (hash : HashId → Nat → List Cell → Nat) : Prop :=
  ∀ rank, rank < n → ∀ ibatch, ibatch < run.over_decomposition_factor → ∀ side,
    ∃ row ∈ (run.view side 0).rows, run.Meets hash rank ibatch side row

/-- Well-formed tables of fixed-width columns without scales, with options that their columns
support. -/
structure Plain : Prop where
  wellFormed : ∀ side, (run.view side 0).WellFormed
  fixed : ∀ side, (run.view side 0).FixedWidth
  kept : ∀ side, TypesKept n (run.view side 0)
  compressible : run.nvlink_partition_size ≠ n → ∀ side icol,
    icol < (run.view side 0).length →
      ((run.compression_options side).getD icol .none).compression_method = .none ∨
        ((run.compression_options side).getD icol .none).compression_method = .cascaded ∧
          ((run.view side 0).column icol).type.id.compressible = true

end Program

end TestRun

section Announcements

/-- Sends and receives announce nothing. -/
theorem filter_map_event
    {channel : Channel}
    (actions : List (Action ranks channel)) :
    (actions.map Action.event).filter announces = [] := by
  refine List.filter_eq_nil_iff.mpr fun event member => ?_
  obtain ⟨action, _, rfl⟩ := List.mem_map.mp member
  cases action <;> exact Bool.false_ne_true

theorem filter_bcastEvents (n : Nat) (value : Int) (rank : Nat) :
    (bcastEvents n value rank).filter announces = [] := by
  rw [bcastEvents, List.filter_append, filter_map_event]
  rfl

/-- The distribution of a table announces nothing. -/
theorem filter_distributeTableEvents (global_table : Table) (n rank : Nat) :
    (distributeTableEvents global_table n rank).filter announces = [] := by
  have distributes : ∀ icol, (distributeEvents icol (global_table.column icol)
      (fun rank => get_local_table_size global_table.num_rows rank n)
      (global_table.column icol).type.id.size_of n rank).filter announces = [] := by
    intro icol
    rw [distributeEvents, List.filter_append, List.filter_append, filter_map_event,
      List.filter_append]
    split <;> rfl
  rw [distributeTableEvents, List.filter_append, List.filter_append, List.filter_append,
    filter_bcastEvents, filter_bcastEvents,
    filter_flatMap_silent _ fun icol _ => filter_bcastEvents n _ rank,
    filter_flatMap_silent _ fun icol _ => distributes icol]
  rfl

/-- The collection of tables announces nothing. -/
theorem filter_collectTablesEvents (n : Nat) (table : Nat → Table) (rank : Nat) :
    (collectTablesEvents n table rank).filter announces = [] := by
  have collects : ∀ icol, (collectEvents icol (fun rank => (table rank).column icol)
      (fun rank => (table rank).num_rows) ((table 0).column icol).type.id.size_of n
      rank).filter announces = [] := by
    intro icol
    rw [collectEvents, List.filter_append, List.filter_append, filter_map_event,
      List.filter_append]
    split <;> rfl
  rw [collectTablesEvents, gatherEvents, List.filter_append, List.filter_append,
    filter_map_event, filter_flatMap_silent _ fun icol _ => collects icol]
  rfl

/-- A note that the joining thread does not look for. -/
def Silent (note : Note) : Prop := announces (.noted note) = false

theorem silent_require_fixed_width (dtype : DataType) :
    (require_fixed_width dtype).Ensures Silent fun _ => True := by
  unfold require_fixed_width
  split <;> trivial

theorem silent_collect_cols
    (icol : Nat)
    (column : Column)
    (nrows : Int)
    (table_nrows table_nrows_scan : List Int)
    (communicator : Communicator) :
    (collect_cols icol column nrows table_nrows table_nrows_scan communicator).Ensures Silent
      fun _ => True := by
  have stops : ∀ copied : List Byte, Process.Ensures Silent (fun _ => True) (do
      let arrivals ← Communicator.stop
      if communicator.mpi_rank = 0 then
        pure (⟨0, copied⟩ :: arrivals.map fun arrival => ⟨arrival.1.start, arrival.2.bytes⟩)
      else pure ([] : List Write)) := by
    exact fun copied => (Process.ensures_await _).bind fun arrivals _ => .ite trivial trivial
  have start : Communicator.start.Ensures Silent fun _ => True := Process.ensures_observe rfl
  refine (silent_require_fixed_width column.type).bind fun _ _ => start.bind fun _ _ =>
    (Process.ensures_perform _).bind fun _ _ => ?_
  have copies : ∀ bytes, Process.Ensures Silent (fun _ => True)
      (Process.observe (I := ranks) (copy_note icol bytes)) := fun _ => Process.ensures_observe rfl
  exact .ite ((copies _).bind fun _ _ => stops _) (stops _)

/-- The collection of the results announces nothing. -/
theorem silent_collect_result
    (gpu : Gpu)
    (communicator : Communicator)
    (result : Except String Table) :
    (collect_result gpu communicator result).Ensures Silent fun _ => True := by
  cases result with
  | error reason => trivial
  | ok table =>
      have merges : ∀ table_nrows merged_rows, Process.Ensures Silent (fun _ => True) (do
          let merged_columns ← (List.range table.length).mapM fun icol => do
            let column := table.column icol
            let writes ← collect_cols icol column table.num_rows table_nrows
              (scan_table_nrows table_nrows) communicator
            pure (fixed_width_column column.type merged_rows
              (contents gpu.uninitialized writes
                (merged_rows.toNat * column.type.id.size_of)))
          pure (if communicator.mpi_rank = 0 then some merged_columns else none)) := by
        refine fun table_nrows merged_rows => (Process.ensures_mapM _ fun icol _ => ?_).bind
          fun _ _ => trivial
        exact (silent_collect_cols ..).bind fun _ _ => trivial
      have gathers : (MPI_Gather table.num_rows communicator).Ensures Silent fun _ => True := by
        exact (Process.ensures_perform _).bind fun _ _ => (Process.ensures_await _).bind
          fun _ _ => .ite trivial trivial
      refine gathers.bind fun table_nrows _ => .ite ?_ (merges _ _)
      refine (Process.ensures_forM _ fun column _ => ?_).bind fun _ _ => merges _ _
      exact (silent_require_fixed_width _).bind fun _ _ => .ite trivial trivial

theorem ensures_distributed_inner_join
    (cudf : Cudf)
    (gpu : Gpu)
    (left right : Table)
    (left_on right_on : List Nat)
    (communicator : Communicator)
    (left_compression_options right_compression_options : List ColumnCompressionOptions)
    (over_decom_factor : Nat)
    (nvlink_domain_size : Int) :
    (distributed_inner_join cudf gpu left right left_on right_on communicator
      left_compression_options right_compression_options over_decom_factor
      nvlink_domain_size).Ensures (fun _ => True) fun outcome =>
        outcome = none → get_nvl_partition_size communicator.mpi_size nvlink_domain_size ≠ 1 := by
  unfold distributed_inner_join
  dsimp only
  by_cases alone : get_nvl_partition_size communicator.mpi_size nvlink_domain_size = 1
  · simp only [if_pos alone]
    split
    · exact (Process.ensures_true _).bind fun _ _ none => absurd none (Option.some_ne_none _)
    · exact fun none => absurd none (Option.some_ne_none _)
  · simp only [if_neg alone]
    split
    · exact (Process.ensures_true _).bind fun _ _ =>
        (Process.ensures_true _).bind fun _ _ _ => alone
    · rw [pure_bind]
      exact (Process.ensures_true _).bind fun _ _ _ => alone

end Announcements

namespace TestRun

variable {n : Nat} {run : TestRun n} {cudf : Cudf} {gpu : Gpu}

/-- The join of the local tables. -/
def join_call
    (run : TestRun n)
    (kept : ∀ side, TypesKept n (run.view side 0))
    (gpu : Gpu) : JoinCall n where
  n_pos := run.n_pos
  input := fun side => {
    schema := (run.view side 0).schema
    table := distributed gpu (run.view side 0) n
    same_schema := fun _ rankBound => schema_distributed (kept side) rankBound
    on_columns := run.on_columns side
    options := run.compression_options side }
  group_by_batch := run.group_by_batch
  over_decom_factor := run.over_decomposition_factor
  over_decom_factor_pos := run.over_decomposition_factor_pos
  nvlink_domain_size := run.nvlink_domain_size

/-- The local tables have the rows of the table of the root. -/
theorem Plain.all_rows_eq
    (plain : run.Plain)
    (side : Side) :
    ((run.join_call plain.kept gpu).input side).all_rows = (run.view side 0).rows := by
  have wellFormed := plain.wellFormed side
  have fixed := plain.fixed side
  rw [wellFormed.rows_eq fixed, ← flatMap_local_part (run.view side 0).head_rows run.n_pos]
  exact List.flatMap_congr fun rank range =>
    rows_distributed wellFormed.sound fixed (List.mem_range.mp range)

/-- The local tables can be joined. -/
theorem Plain.plain_join_call (plain : run.Plain) : (run.join_call plain.kept gpu).Plain where
  fixed := by
    intro side dtype member
    obtain ⟨column, inTable, rfl⟩ := List.mem_map.mp member
    exact plain.fixed side column inTable
  sound := fun side rank rankBound =>
    (wellFormed_distributed (plain.wellFormed side).sound (plain.fixed side) rankBound).sound
  non_null := by
    intro side rank rankBound
    have wellFormed : (distributed gpu (run.view side 0) n rank).WellFormed :=
      wellFormed_distributed (plain.wellFormed side).sound (plain.fixed side) rankBound
    exact Table.nonNull_of_masks wellFormed.sizes fun column member =>
      (wellFormed.columns column member).non_null

/-- All numbers of rows can be counted. -/
theorem Plain.countable
    (plain : run.Plain)
    (hash : HashId → Nat → List Cell → Nat) :
    (run.join_call plain.kept gpu).Countable hash := by
  have total : ∀ side, ((run.join_call plain.kept gpu).input side).all_rows.length < 2 ^ 31 := by
    intro side
    have small := (plain.wellFormed side).sound.num_rows_lt
    rw [plain.all_rows_eq, Table.length_rows]
    omega
  constructor
  case shuffled =>
    intro _ side rank rankBound
    let join := run.join_call plain.kept gpu
    have group : (join.infiniband.group_rows (join.input side).table rank : Multiset Row) ≤
        (join.input side).all_rows := by
      have sum : ∑ index ∈ Finset.range join.nvlink_partition_size,
          (join.infiniband.group_rows (join.input side).table
            (rank / join.nvlink_partition_size * join.nvlink_partition_size + index) :
              Multiset Row) = _ :=
        Layout.sum_group_rows_infiniband (join.input side).table (join.domain_lt rankBound)
      rw [JoinTable.all_rows, ← sum]
      have place := Finset.mem_range.mpr (Nat.mod_lt rank join.nvlink_partition_size_pos)
      have part := Finset.single_le_sum (f := fun index =>
        (join.infiniband.group_rows (join.input side).table
          (rank / join.nvlink_partition_size * join.nvlink_partition_size + index) :
            Multiset Row)) (fun _ _ => Multiset.zero_le _) place
      rwa [Nat.div_add_mod'] at part
    have fewer := Multiset.card_le_card group
    exact (List.length_filter_le _ _).trans_lt (fewer.trans_lt (total side))
  case batches =>
    exact fun _ side _ _ _ _ => (List.length_filter_le _ _).trans_lt (total side)

/-- Rows of the tables of the root are joined everywhere. -/
theorem Plain.meetsRows
    {hash : HashId → Nat → List Cell → Nat}
    (plain : run.Plain)
    (meets : run.MeetsRows hash) :
    (run.join_call plain.kept gpu).MeetsRows hash := by
  intro rank rankBound ibatch ibatchBound side
  rw [plain.all_rows_eq]
  exact meets rank rankBound ibatch ibatchBound side

/-- The columns of the tables can be compressed as asked for. -/
theorem Plain.compressible_join_call
    (plain : run.Plain)
    (several : run.nvlink_partition_size ≠ n) :
    (run.join_call plain.kept gpu).Compressible := by
  intro side icol icolBound
  have bound : icol < (run.view side 0).length :=
    icolBound.trans_eq (List.length_map _)
  have type : (run.view side 0).schema.getD icol Table.missingColumn.type =
      ((run.view side 0).column icol).type := by
    rw [Table.schema, Table.column, List.getD_map]
  have supported := plain.compressible several side icol bound
  rw [← type] at supported
  exact supported

/-- The table that the root has collected is the join on a single GPU, up to the order of its
rows. -/
structure Verified (run : TestRun n) (cudf : Cudf) (join_result : Table) : Prop where
  schema : join_result.schema = (run.reference cudf).schema
  rows : (join_result.rows : Multiset Row) = (run.reference cudf).rows

/-- Tables that the join returns on all ranks. Together they are the join on a single GPU. -/
structure Results (run : TestRun n) (cudf : Cudf) (result : Nat → Table) : Prop where
  fixed : ∀ dtype ∈ (run.reference cudf).schema, dtype.id ≠ .STRING
  created : ∀ rank, rank < n → (result rank).Created
  non_null : ∀ rank, rank < n → (result rank).NonNull
  schema : ∀ rank, rank < n → (result rank).schema = (run.reference cudf).schema
  rows : (((List.range n).flatMap fun rank => (result rank).rows : List Row) : Multiset Row) =
    (run.reference cudf).rows
  small : (run.reference cudf).rows.length < 2 ^ 31

namespace Results

variable {result : Nat → Table} (results : run.Results cudf result)
include results

theorem sound (rank : Nat) (rankBound : rank < n) : (result rank).Sound :=
  (results.created rank rankBound).sound

/-- The tables can be merged. -/
theorem mergeable : Mergeable n result where
  same_schema := fun rank rankBound =>
    (results.schema rank rankBound).trans (results.schema 0 run.n_pos).symm
  fixed := by
    rw [results.schema 0 run.n_pos]
    exact results.fixed

/-- The root can count the rows of all tables. -/
theorem total_rows_lt : total_rows n result < 2 ^ 31 := by
  have length := congrArg Multiset.card results.rows
  rw [Multiset.coe_card, Multiset.coe_card, List.length_flatMap] at length
  simp only [Table.length_rows] at length
  have small := results.small
  rw [Table.length_rows] at small
  rw [total_rows_eq results.sound, length]
  exact_mod_cast small

theorem allocatable : Allocatable n result := by
  refine .inr ?_
  rw [merged_rows_small results.sound results.total_rows_lt, total_rows_eq results.sound]
  exact Int.natCast_nonneg _

/-- The merged table is the join on a single GPU. -/
theorem verified_merged (gpu : Gpu) : run.Verified cudf (merged gpu n result) where
  schema := (schema_merged gpu n result).trans (results.schema 0 run.n_pos)
  rows := by
    rw [rows_merged gpu results.sound results.mergeable results.total_rows_lt, ← results.rows]
    congr 1
    refine List.flatMap_congr fun rank range => ?_
    have rankBound := List.mem_range.mp range
    refine ((results.created rank rankBound).rows_eq (results.non_null rank rankBound) ?_).symm
    intro column member
    have inSchema := List.mem_map_of_mem (f := Column.type) member
    rw [show (result rank).map Column.type = _ from results.schema rank rankBound] at inSchema
    exact results.fixed _ inSchema

end Results

section Reference

variable {hash : HashId → Nat → List Cell → Nat} (plain : run.Plain) (meets : run.MeetsRows hash)

include meets

/-- There are rows on both sides. -/
theorem MeetsRows.num_rows_ne_zero (side : Side) : (run.view side 0).num_rows ≠ 0 := by
  intro none
  obtain ⟨row, member, _⟩ := meets 0 run.n_pos 0 run.over_decomposition_factor_pos side
  have length := List.length_pos_of_mem member
  rw [Table.length_rows, none] at length
  contradiction

theorem MeetsRows.schema_reference (keeps : cudf.inner_join.KeepsColumns) :
    (run.reference cudf).schema = (run.view .left 0).schema ++ (run.view .right 0).schema :=
  keeps _ _ _ _ (meets.num_rows_ne_zero .left) (meets.num_rows_ne_zero .right)

include plain in
theorem Plain.rows_reference
    {matching : List Cell → List Cell → Bool}
    (joins : cudf.inner_join.Joins matching) :
    ((run.reference cudf).rows : Multiset Row) =
      joined_rows matching (run.on_columns .left) (run.on_columns .right) (run.view .left 0).rows
        (run.view .right 0).rows :=
  joins _ _ _ _ (plain.wellFormed .left).sound (plain.wellFormed .right).sound
    (meets.num_rows_ne_zero .left) (meets.num_rows_ne_zero .right)

end Reference

section Run

variable {hash : HashId → Nat → List Cell → Nat}

/-- The calling threads until the end of the communication of the join. -/
theorem Plain.exists_phase_program
    (eager : Eagerness ranks)
    (plain : run.Plain)
    (partitions : cudf.hash_partition.Partitions hash)
    (kept : ((run.join_call plain.kept gpu).after_shuffle
      (JoinCall.shuffleKept plain.plain_join_call.sound partitions) gpu).BatchesKept
        cudf.hash_partition) :
    ∃ log, Phase n eager (Arrivals.none ranks) (run.program cudf gpu) (Arrivals.none ranks)
        (.ok (((run.join_call plain.kept gpu).after_shuffle
          (JoinCall.shuffleKept plain.plain_join_call.sound partitions) gpu).outcome cudf)) log ∧
      ∀ rank, (log rank).filter announces =
        announcements (JoinCall.received_batches gpu kept rank)
          (JoinState.batch_count run.over_decomposition_factor
            (((run.join_call plain.kept gpu).after_shuffle
              (JoinCall.shuffleKept plain.plain_join_call.sound partitions) gpu).outcome
                cudf rank)) := by
  have distributes : ∀ side, Phase n eager (Arrivals.none ranks) _ _ _ _ := fun side =>
    phase_distribute_table run.n_pos run.group_by_batch gpu (run.view side)
      fun _ icolBound => plain.fixed side _ (Table.column_mem icolBound)
  have plain_join : (run.join_call plain.kept gpu).Plain := plain.plain_join_call
  have supported : (run.join_call plain.kept gpu).nvlink_partition_size ≠ n → ∀ side,
      (JoinCall.shuffle (JoinCall.shuffleKept plain_join.sound partitions) side).Supported :=
    fun several => plain_join.supported_shuffle partitions (plain.compressible_join_call several)
  obtain ⟨log, attempt, announced⟩ := @JoinCall.exists_attempt_program n
    (run.join_call plain.kept gpu) eager cudf gpu (JoinCall.shuffleKept plain_join.sound partitions)
    supported
    (fun _ side => (JoinCall.partitioned_shuffle plain_join.sound partitions side).whole.narrow)
    kept
  have phase := attempt.phase
    (plain_join.allocates partitions supported (plain.countable hash) gpu)
  refine ⟨_, (distributes .left).bind ((distributes .right).bind phase), fun rank => ?_⟩
  rw [List.filter_append, List.filter_append, filter_distributeTableEvents,
    filter_distributeTableEvents]
  exact announced rank

/-- The tables that are exchanged in batches. -/
theorem Plain.exchanged
    (plain : run.Plain)
    (partitions : cudf.hash_partition.Partitions hash)
    (gpu : Gpu) :
    (run.join_call plain.kept gpu).Exchanged hash ((run.join_call plain.kept gpu).exchanged_input
      (JoinCall.shuffleKept plain.plain_join_call.sound partitions) gpu) :=
  plain.plain_join_call.exchanged partitions
    (fun several => plain.plain_join_call.supported_shuffle partitions
      (plain.compressible_join_call several))
    (plain.countable hash) gpu

/-- Every rank returns a table from the join, and together the tables are the join on a single
GPU. -/
theorem Plain.exists_results
    {matching : List Cell → List Cell → Bool}
    (gpu : Gpu)
    (plain : run.Plain)
    (partitions : cudf.hash_partition.Partitions hash)
    (hashes : HashesMatch hash matching)
    (joins : cudf.inner_join.Joins matching)
    (keeps : cudf.inner_join.KeepsColumns)
    (creates : cudf.inner_join.Creates)
    (appends : cudf.concatenate.Appends)
    (meets : run.MeetsRows hash)
    (small : (run.reference cudf).rows.length < 2 ^ 31) :
    ∃ result : Nat → Table, run.Results cudf result ∧ ∀ rank, rank < n →
      joined_result cudf (run.on_columns .left) (run.on_columns .right)
          run.over_decomposition_factor
          (JoinCall.received_batches gpu ((plain.exchanged partitions gpu).kept partitions)) rank
          (((run.join_call plain.kept gpu).after_shuffle
            (JoinCall.shuffleKept plain.plain_join_call.sound partitions) gpu).outcome cudf rank) =
        .ok (result rank) := by
  have exchanged : (run.join_call plain.kept gpu).Exchanged hash _ :=
    plain.exchanged partitions gpu
  have countable : (run.join_call plain.kept gpu).Countable hash := plain.countable hash
  have rows : ∀ side, ((run.join_call plain.kept gpu).input side).all_rows =
      (run.view side 0).rows := plain.all_rows_eq
  have reference := plain.rows_reference meets joins
  have schema_reference := meets.schema_reference keeps
  have few : (joined_rows matching (run.on_columns .left) (run.on_columns .right)
      (run.view .left 0).rows (run.view .right 0).rows).card < 2 ^ 31 := by
    rw [← reference]
    exact small
  have each : ∀ rank, ∃ table, rank < n →
      JoinCall.join_result gpu (exchanged.kept partitions) rank = .ok table ∧
        JoinCall.Joined gpu (exchanged.kept partitions) rank table := by
    intro rank
    by_cases rankBound : rank < n
    · obtain ⟨table, joined⟩ := exchanged.exists_joined partitions plain.plain_join_call countable
        gpu joins hashes (by rw [rows, rows]; exact few) (plain.meetsRows meets) creates keeps
        appends rankBound
      exact ⟨table, fun _ => joined⟩
    · exact ⟨[], fun inside => absurd inside rankBound⟩
  choose result joined using each
  refine ⟨result, {
    fixed := ?_
    created := fun rank rankBound => (joined rank rankBound).2.created
    non_null := fun rank rankBound => (joined rank rankBound).2.non_null
    schema := fun rank rankBound => ?_
    rows := ?_
    small := small }, fun rank rankBound => ?_⟩
  · have fixed := (plain.plain_join_call : (run.join_call plain.kept gpu).Plain).fixed
    rw [schema_reference]
    intro dtype inside
    rcases List.mem_append.mp inside with left | right
    · exact fixed .left dtype left
    · exact fixed .right dtype right
  · rw [(joined rank rankBound).2.schema, schema_reference]
    exact congrArg₂ _ (exchanged.schema .left) (exchanged.schema .right)
  · have sum := exchanged.sum_rows_local_joins partitions plain.plain_join_call countable gpu joins
      hashes
    rw [rows, rows] at sum
    rw [Relational.coe_flatMap_range, reference]
    refine (Finset.sum_congr rfl fun rank range => ?_).trans sum
    rw [(joined rank (Finset.mem_range.mp range)).2.rows]
  · have on_columns : ∀ side, ((run.join_call plain.kept gpu).exchanged_input
        (JoinCall.shuffleKept plain.plain_join_call.sound partitions) gpu side).on_columns =
          run.on_columns side := exchanged.on_columns
    rw [← on_columns .left, ← on_columns .right]
    exact (joined rank rankBound).1

/-- The test as a program of threads that know the tables of all batches. -/
theorem Plain.inlines
    (eager : Eagerness ranks)
    (plain : run.Plain)
    (partitions : cudf.hash_partition.Partitions hash)
    {kept : ((run.join_call plain.kept gpu).after_shuffle
      (JoinCall.shuffleKept plain.plain_join_call.sound partitions) gpu).BatchesKept
        cudf.hash_partition}
    {result : Nat → Table}
    (returned : ∀ rank, rank < n →
      joined_result cudf (run.on_columns .left) (run.on_columns .right)
          run.over_decomposition_factor (JoinCall.received_batches gpu kept) rank
          (((run.join_call plain.kept gpu).after_shuffle
            (JoinCall.shuffleKept plain.plain_join_call.sound partitions) gpu).outcome cudf rank) =
        .ok (result rank))
    (mergeable : Mergeable n result)
    (allocatable : Allocatable n result) :
    ∃ count log, Inlined cudf n eager (run.on_columns .left) (run.on_columns .right)
      run.over_decomposition_factor (run.program cudf gpu)
      (fun rank => collect_result gpu (communicatorOf n run.group_by_batch rank))
      (JoinCall.received_batches gpu kept) count
      (fun rank => if rank = 0 then some (merged gpu n result) else none) log := by
  obtain ⟨_, phase, announced⟩ := plain.exists_phase_program eager partitions kept
  have collects : Phase n eager (Arrivals.none ranks) (fun rank =>
      collect_result gpu (communicatorOf n run.group_by_batch rank)
        (joined_result cudf (run.on_columns .left) (run.on_columns .right)
          run.over_decomposition_factor (JoinCall.received_batches gpu kept) rank
          (((run.join_call plain.kept gpu).after_shuffle
            (JoinCall.shuffleKept plain.plain_join_call.sound partitions) gpu).outcome
              cudf rank))) _ _ _ :=
    (phase_collect_tables run.n_pos run.group_by_batch gpu result mergeable allocatable).congr
      fun rank rankBound => by rw [returned rank rankBound, collect_result]
  have settles : Settles n eager (fun rank => run.program cudf gpu rank >>= fun outcome =>
      collect_result gpu (communicatorOf n run.group_by_batch rank)
        (joined_result cudf (run.on_columns .left) (run.on_columns .right)
          run.over_decomposition_factor (JoinCall.received_batches gpu kept) rank outcome)) _ _ :=
    .of_returning (phase.bind collects)
  refine ⟨fun rank => JoinState.batch_count run.over_decomposition_factor
    (((run.join_call plain.kept gpu).after_shuffle
      (JoinCall.shuffleKept plain.plain_join_call.sound partitions) gpu).outcome cudf rank), _, {
    settles := settles
    announced := fun rank _ => ?_
    complete := fun rank _ => ?_
    silent := fun rank result => silent_collect_result gpu _ result }⟩
  · rw [List.filter_append, filter_collectTablesEvents, List.append_nil]
    exact announced rank
  · refine (Process.ensures_true _).bind fun _ _ => (Process.ensures_true _).bind fun _ _ => ?_
    refine (ensures_distributed_inner_join ..).mono fun outcome several unjoined => ?_
    have waits : ((run.join_call plain.kept gpu).after_shuffle
        (JoinCall.shuffleKept plain.plain_join_call.sound partitions) gpu).outcome cudf rank =
          none := if_neg (several unjoined)
    rw [waits]
    rfl

end Run

end TestRun

/-- Whatever order the threads of all ranks run in: no rank fails, what the root returns from
`collect_tables` is the join on a single GPU, the workers return nothing, and all ranks can come
to the end of the test. -/
theorem matches_single_gpu
    {n : Nat}
    (run : TestRun n)
    (eager : Eagerness ranks)
    (gpu : Gpu)
    (cudf : Cudf)
    (hash : HashId → Nat → List Cell → Nat)
    (matching : List Cell → List Cell → Bool)
    (partitions : cudf.hash_partition.Partitions hash)
    (hashes : HashesMatch hash matching)
    (joins : cudf.inner_join.Joins matching)
    (keeps : cudf.inner_join.KeepsColumns)
    (creates : cudf.inner_join.Creates)
    (appends : cudf.concatenate.Appends)
    (plain : run.Plain)
    (meets : run.MeetsRows hash)
    (small : (run.reference cudf).rows.length < 2 ^ 31)
    (state : ProgramState (Option Table))
    (reached : Reaches (run.step cudf gpu eager) (run.start cudf gpu) state) :
    (∀ rank, rank < n →
      (∀ reason, (state.calling rank).process ≠ .fail reason) ∧
      ∀ join_result, (state.calling rank).process = .pure (.ended join_result) →
        if rank = 0 then ∃ merged_table, join_result = some merged_table ∧
          run.Verified cudf merged_table
        else join_result = none) ∧
    ∃ finish, Reaches (run.step cudf gpu eager) state finish ∧
      ∀ rank, rank < n → ∃ join_result, (finish.calling rank).process =
        .pure (.ended join_result) := by
  obtain ⟨result, results, returned⟩ :=
    plain.exists_results gpu partitions hashes joins keeps creates appends meets small
  obtain ⟨count, log, inlines⟩ :=
    plain.inlines eager partitions returned results.mergeable results.allocatable
  constructor
  · refine fun rank rankBound => ⟨inlines.not_failed reached rankBound, ?_⟩
    intro join_result ended
    rw [inlines.ended_eq reached rankBound ended]
    by_cases root : rank = 0
    · rw [if_pos root, if_pos root]
      exact ⟨_, rfl, results.verified_merged gpu⟩
    · rw [if_neg root, if_neg root]
  · obtain ⟨finish, further, ended⟩ := inlines.reaches_ended reached
    exact ⟨finish, further, fun rank rankBound => ⟨_, ended rank rankBound⟩⟩

/-- Four ranks of two NVLink domains that join eight bytes in two batches. -/
def bytesRun : TestRun 4 where
  n_pos := four_ranks_pos
  view := fun _ rank => if rank = 0 then .ofBytes [0, 1, 2, 3, 4, 5, 6, 7] else []
  on_columns := fun _ => [0]
  compression_options := fun _ => []
  group_by_batch := false
  over_decomposition_factor := 2
  over_decomposition_factor_pos := Nat.two_pos
  nvlink_domain_size := 2

theorem nvlink_partition_size_bytesRun : bytesRun.nvlink_partition_size = 2 :=
  get_nvl_partition_size_four_two

theorem plain_bytesRun : bytesRun.Plain where
  wellFormed := fun _ => Table.wellFormed_ofBytes (by decide)
  fixed := by
    intro _ column member
    obtain rfl := List.mem_singleton.mp member
    exact TypeId.noConfusion
  kept := by
    intro _
    refine .inr fun column member => ?_
    obtain rfl := List.mem_singleton.mp member
    rfl
  compressible := fun _ _ _ _ => .inl rfl

/-- Each rank is given one byte in each batch. -/
theorem meetsRows_bytesRun : bytesRun.MeetsRows sumOrQuarter := by
  simp only [TestRun.MeetsRows, TestRun.Meets, nvlink_partition_size_bytesRun]
  decide

/-- Every rank joins one byte in each batch, and the root collects all of them. -/
theorem matches_single_gpu_four_ranks :
    ∃ finish,
      Reaches (bytesRun.step (cudf_by_rows sumOrQuarter) storingGpu fun _ _ _ _ => false)
        (bytesRun.start (cudf_by_rows sumOrQuarter) storingGpu) finish ∧
      ∃ merged_table,
        (finish.calling 0).process = .pure (.ended (some merged_table)) ∧
          merged_table.schema = [⟨.INT8, 0⟩, ⟨.INT8, 0⟩] ∧
          (merged_table.rows : Multiset Row) = (([0, 1, 2, 3, 4, 5, 6, 7] : List Byte).map
            fun byte => [some [byte], some [byte]] : List Row) := by
  have verified := matches_single_gpu bytesRun (fun _ _ _ _ => false) storingGpu
    (cudf_by_rows sumOrQuarter) sumOrQuarter (fun left right => decide (left = right))
    (partitions_sorted_by_hash sumOrQuarter)
    (fun _ _ same _ _ => congrArg _ (of_decide_eq_true same)) joins_nested_loop_join
    keepsColumns_nested_loop_join creates_nested_loop_join appends_concatenate_rows
    plain_bytesRun meetsRows_bytesRun (by decide)
  obtain ⟨finish, reached, ended⟩ := (verified _ (.refl _)).2
  obtain ⟨join_result, process⟩ := ended 0 four_ranks_pos
  obtain ⟨merged_table, rfl, same⟩ :=
    ((verified finish reached).1 0 four_ranks_pos).2 join_result process
  exact ⟨finish, reached, merged_table, process, same.schema.trans (by decide),
    same.rows.trans (by decide)⟩

end DistributedJoin
