import DistributedJoin.Join.JoinedRows

/-!
# Tables without rows

A table without rows has no offsets of partitions, but the communication of a table
reads the first and the last row that it sends to every member of its group. A rank
can also lose its last row in the shuffle between NVLink domains. Apart from that, the
offsets of the last batch are cut out up to a position behind their end.
-/

namespace DistributedJoin

open Device Spmd

/-- Tables with rows are sorted into partitions, tables without rows have no offsets. -/
structure HashPartition.SkipsEmpty
    (hash_partition : HashPartition)
    (hash : HashId → Nat → List Cell → Nat) : Prop where
  schema : ∀ input on_columns num_partitions hash_function hash_seed,
    (hash_partition input on_columns num_partitions hash_function hash_seed).1.schema =
      input.schema
  num_rows : ∀ input on_columns num_partitions hash_function hash_seed, 0 < num_partitions →
    (hash_partition input on_columns num_partitions hash_function hash_seed).1.num_rows =
      input.num_rows
  empty : ∀ input on_columns num_partitions hash_function hash_seed, input.num_rows = 0 →
    (hash_partition input on_columns num_partitions hash_function hash_seed).2 = []
  offsets : ∀ input on_columns num_partitions hash_function hash_seed, 0 < num_partitions →
    0 < input.num_rows →
      (hash_partition input on_columns num_partitions hash_function hash_seed).2.length =
        num_partitions
  offsets_sorted : ∀ input on_columns num_partitions hash_function hash_seed,
    0 < num_partitions → 0 < input.num_rows →
      ((hash_partition input on_columns num_partitions hash_function hash_seed).2 ++
        [input.num_rows]).Pairwise (· ≤ ·)
  partitioned : ∀ input on_columns num_partitions hash_function hash_seed, input.Sound →
    0 < num_partitions → 0 < input.num_rows →
      Partitioned (hash hash_function hash_seed) on_columns num_partitions input
        (hash_partition input on_columns num_partitions hash_function hash_seed).1
        (hash_partition input on_columns num_partitions hash_function hash_seed).2

/-- The positions of the offsets that are read for a group: where the rows for a member
begin and end. -/
def offset_reads (comm_group_size : Nat) : List Nat :=
  (List.range comm_group_size).flatMap fun local_idx => [local_idx + 1, local_idx]

/-- Offsets that `AllToAllCommunicator` can be given for a group. -/
structure WellAddressed (comm_group_size : Nat) (offsets : List Int) : Prop where
  length : offsets.length = comm_group_size + 1
  sorted : offsets.Pairwise (· ≤ ·)
  reads : ∀ index ∈ offset_reads comm_group_size, index < offsets.length

theorem WellAddressed.of_length
    {comm_group_size : Nat}
    {offsets : List Int}
    (length : offsets.length = comm_group_size + 1)
    (sorted : offsets.Pairwise (· ≤ ·)) :
    WellAddressed comm_group_size offsets where
  length := length
  sorted := sorted
  reads := by
    intro index member
    obtain ⟨local_idx, range, inPair⟩ := List.mem_flatMap.mp member
    have bound := List.mem_range.mp range
    rcases List.mem_pair.mp inPair with rfl | rfl <;> omega

/-- Where the offsets of a batch begin. -/
def batch_start_idx (nvlink_partition_size ibatch : Nat) : Nat := ibatch * nvlink_partition_size

/-- The position behind the offsets of a batch. -/
def batch_end_idx (nvlink_partition_size ibatch : Nat) : Nat :=
  (ibatch + 1) * nvlink_partition_size + 1

/-- The offsets of a batch are cut out between two elements of the offsets of all batches. -/
structure BatchAddressed
    (offset : List Int)
    (nvlink_partition_size ibatch : Nat) : Prop where
  start_inside : batch_start_idx nvlink_partition_size ibatch < offset.length
  end_inside : batch_end_idx nvlink_partition_size ibatch < offset.length
  passed : WellAddressed nvlink_partition_size
    (batch_offsets offset nvlink_partition_size ibatch)

/-- The offsets of a batch are cut out as they are needed. Those of the last batch end where
the offsets of all batches end. -/
structure BatchPassed
    (over_decom_factor : Nat)
    (offset : List Int)
    (nvlink_partition_size ibatch : Nat) : Prop where
  start_inside : batch_start_idx nvlink_partition_size ibatch < offset.length
  end_inside : ibatch + 1 < over_decom_factor →
    batch_end_idx nvlink_partition_size ibatch < offset.length
  end_last : ibatch + 1 = over_decom_factor →
    batch_end_idx nvlink_partition_size ibatch = offset.length
  passed : WellAddressed nvlink_partition_size
    (batch_offsets offset nvlink_partition_size ibatch)

namespace HashPartition.SkipsEmpty

variable {hash_partition : HashPartition} {hash : HashId → Nat → List Cell → Nat}
  (skips : hash_partition.SkipsEmpty hash) {input : Table} (nonnegative : 0 ≤ input.num_rows)
  (on_columns : List Nat) {num_partitions : Nat} (positive : 0 < num_partitions)
  (hash_function : HashId) (hash_seed : Nat)
include skips

section

include positive

/-- A table with rows has one offset more than partitions. -/
theorem length_append (rows : 0 < input.num_rows) :
    ((hash_partition input on_columns num_partitions hash_function hash_seed).2 ++
      [input.num_rows]).length = num_partitions + 1 := by
  rw [List.length_append, skips.offsets _ _ _ _ _ positive rows, List.length_singleton]

include nonnegative

/-- Exactly the tables with rows can be communicated. -/
theorem wellAddressed_iff :
    WellAddressed num_partitions
        ((hash_partition input on_columns num_partitions hash_function hash_seed).2 ++
          [input.num_rows]) ↔
      0 < input.num_rows := by
  constructor
  · intro addressed
    have length := addressed.length
    by_contra none
    rw [skips.empty _ _ _ _ _ (by omega), List.nil_append, List.length_singleton] at length
    omega
  · exact fun rows => .of_length (skips.length_append on_columns positive _ _ rows)
      (skips.offsets_sorted _ _ _ _ _ positive rows)

end

variable {nvlink_partition_size over_decom_factor : Nat} (size_pos : 0 < nvlink_partition_size)
  (factor_pos : 0 < over_decom_factor)
include nonnegative size_pos factor_pos

/-- Exactly the tables with rows can be cut into batches. -/
theorem batchPassed_iff :
    (∀ ibatch, ibatch < over_decom_factor → BatchPassed over_decom_factor
        ((hash_partition input on_columns (nvlink_partition_size * over_decom_factor)
            hash_function hash_seed).2 ++ [input.num_rows])
        nvlink_partition_size ibatch) ↔
      0 < input.num_rows := by
  have positive := Nat.mul_pos size_pos factor_pos
  constructor
  · intro passed
    have last := (passed (over_decom_factor - 1) (by omega)).end_last (by omega)
    by_contra none
    rw [skips.empty _ _ _ _ _ (by omega), List.nil_append, List.length_singleton, batch_end_idx,
      Nat.sub_add_cancel factor_pos] at last
    have whole := Nat.mul_pos factor_pos size_pos
    omega
  · intro rows ibatch ibatchBound
    have length := skips.length_append on_columns positive hash_function hash_seed rows
    have following : (ibatch + 1) * nvlink_partition_size =
        ibatch * nvlink_partition_size + nvlink_partition_size := Nat.succ_mul _ _
    have room : (ibatch + 1) * nvlink_partition_size ≤
        nvlink_partition_size * over_decom_factor := by
      rw [Nat.mul_comm nvlink_partition_size]
      exact Nat.mul_le_mul_right _ ibatchBound
    constructor
    case start_inside =>
      rw [batch_start_idx]
      omega
    case end_inside =>
      intro more
      have further : (ibatch + 2) * nvlink_partition_size ≤
          nvlink_partition_size * over_decom_factor := by
        rw [Nat.mul_comm nvlink_partition_size]
        exact Nat.mul_le_mul_right _ more
      rw [Nat.succ_mul] at further
      rw [batch_end_idx]
      omega
    case end_last =>
      rintro rfl
      rw [batch_end_idx, length, Nat.mul_comm]
    case passed =>
      refine .of_length (JoinCall.length_batch_offsets length ibatchBound) ?_
      exact (skips.offsets_sorted _ _ _ _ _ positive rows).sublist
        ((List.take_sublist _ _).trans (List.drop_sublist _ _))

/-- The end of the last batch is behind all offsets. -/
theorem not_batchAddressed :
    ¬ BatchAddressed
      ((hash_partition input on_columns (nvlink_partition_size * over_decom_factor)
        hash_function hash_seed).2 ++ [input.num_rows])
      nvlink_partition_size (over_decom_factor - 1) := by
  intro addressed
  have inside := addressed.end_inside
  rcases Int.lt_or_eq_of_le nonnegative with rows | none
  · have last := ((skips.batchPassed_iff nonnegative on_columns hash_function hash_seed size_pos
      factor_pos).mpr rows (over_decom_factor - 1) (by omega)).end_last (by omega)
    omega
  · have whole := Nat.mul_pos factor_pos size_pos
    rw [skips.empty _ _ _ _ _ none.symm, List.nil_append, List.length_singleton, batch_end_idx,
      Nat.sub_add_cancel factor_pos] at inside
    omega

end HashPartition.SkipsEmpty

/-- The offsets that `shuffle_on` gives to `AllToAllCommunicator` on a rank. -/
def Shuffle.passed_offsets
    {n : Nat}
    (shuffle : Shuffle n)
    (hash_partition : HashPartition)
    (rank : Nat) : List Int :=
  (shuffle.hashed hash_partition rank).2 ++ [(shuffle.hashed hash_partition rank).1.num_rows]

theorem Shuffle.wellAddressed_iff
    {n : Nat}
    {hash_partition : HashPartition}
    {hash : HashId → Nat → List Cell → Nat}
    (skips : hash_partition.SkipsEmpty hash)
    (shuffle : Shuffle n)
    {rank : Nat}
    (sound : (shuffle.input rank).Sound) :
    WellAddressed shuffle.layout.group_size (shuffle.passed_offsets hash_partition rank) ↔
      0 < (shuffle.input rank).num_rows := by
  have positive := shuffle.layout.group_size_pos
  rw [passed_offsets, hashed, skips.num_rows _ _ _ _ _ positive]
  exact skips.wellAddressed_iff sound.num_rows_nonneg _ positive _ _

namespace JoinCall

variable {n : Nat} (join : JoinCall n) (hash_partition : HashPartition) (gpu : Gpu)
  (eager : Eagerness ranks)

/-- What the calling threads do to shuffle both tables. -/
def shuffle_program (rank : Nat) : Process ranks (Table × Table) :=
  shuffle_in_infiniband_domain hash_partition gpu ((join.input .left).table rank)
    ((join.input .right).table rank) (join.input .left).on_columns
    (join.input .right).on_columns join.nvlink_partition_size
    (communicatorOf n join.group_by_batch rank) (join.input .left).options
    (join.input .right).options

/-- The tables that a rank exchanges in batches: those of the call, or those that some run of
the shuffle returns. -/
def Exchanges (rank : Nat) (tables : Table × Table) : Prop :=
  if join.nvlink_partition_size = n then tables = join.tables rank
  else Produces n eager (join.shuffle_program hash_partition gpu) rank tables

/-- The offsets of all batches of a table. -/
def batches_offset (table : Table) (on_columns : List Nat) : List Int :=
  (hash_partition table on_columns join.num_partitions .HASH_MURMUR3 hash_partition_seed).2 ++
    [table.num_rows]

/-- A join gives `AllToAllCommunicator` the offsets it needs, in the shuffle of the left
table, in the one of the right table if a rank comes to it, and in all batches. -/
structure OffsetsInRange (addressed : List Int → Nat → Nat → Prop) : Prop where
  left_shuffle : join.nvlink_partition_size ≠ n → ∀ rank, rank < n →
    WellAddressed join.infiniband.group_size
      ((join.shuffle_call .left).passed_offsets hash_partition rank)
  right_shuffle : join.nvlink_partition_size ≠ n → ∀ rank, rank < n →
    (∃ shuffled_left,
      Produces n eager ((join.shuffle_call .left).program hash_partition gpu) rank
        shuffled_left) →
    WellAddressed join.infiniband.group_size
      ((join.shuffle_call .right).passed_offsets hash_partition rank)
  batches : join.nvlink_partition_size ≠ 1 → ∀ rank, rank < n →
    ∀ tables, join.Exchanges hash_partition gpu eager rank tables →
      ∀ ibatch, ibatch < join.over_decom_factor →
        addressed
            (join.batches_offset hash_partition tables.1 (join.input .left).on_columns)
            join.nvlink_partition_size ibatch ∧
          addressed
            (join.batches_offset hash_partition tables.2 (join.input .right).on_columns)
            join.nvlink_partition_size ibatch

variable {hash_partition} {hash : HashId → Nat → List Cell → Nat}

/-- All tables that are shuffled have rows. A right table is only shuffled if the left one can
be sent. -/
structure ShufflesRows (kept : join.ShuffleKept hash_partition) : Prop where
  left_input : join.nvlink_partition_size ≠ n → ∀ rank, rank < n →
    0 < ((join.input .left).table rank).num_rows
  right_input : join.nvlink_partition_size ≠ n → (shuffle kept .left).Supported →
    ∀ rank, rank < n → 0 < ((join.input .right).table rank).num_rows

/-- No rank comes to the batches: there are none, or some table cannot be sent. -/
def SkipsBatches (kept : join.ShuffleKept hash_partition) : Prop :=
  join.nvlink_partition_size = 1 ∨
    join.nvlink_partition_size ≠ n ∧ ¬ ∀ side, (shuffle kept side).Supported

variable (hash) in
/-- All tables that are partitioned have rows: the tables of the call and, with several
NVLink domains of several ranks, what the ranks are sent in the shuffle. -/
structure AlwaysRows (kept : join.ShuffleKept hash_partition) : Prop extends
    join.ShufflesRows kept where
  unshuffled : join.nvlink_partition_size = n → join.nvlink_partition_size ≠ 1 →
    ∀ side rank, rank < n → 0 < ((join.input side).table rank).num_rows
  shuffled : join.nvlink_partition_size ≠ n → join.nvlink_partition_size ≠ 1 →
    (∀ side, (shuffle kept side).Supported) → ∀ side rank, rank < n →
      0 < toSizeType (join.shuffled_rows hash side rank).length

theorem shuffleKept_of_skips (skips : hash_partition.SkipsEmpty hash) :
    join.ShuffleKept hash_partition := fun side rank rankBound =>
  (skips.schema _ _ _ _ _).trans ((join.input side).same_schema rank rankBound)

variable {join} {gpu} {eager}

/-- Tables with rows are partitioned for the shuffle. -/
theorem partitioned_of_rows
    (skips : hash_partition.SkipsEmpty hash)
    {side : Side}
    (sound : ∀ rank, rank < n → ((join.input side).table rank).Sound)
    (rows : ∀ rank, rank < n → 0 < ((join.input side).table rank).num_rows) :
    (join.shuffle_call side).AllPartitioned hash hash_partition := fun rank rankBound =>
  skips.partitioned _ _ _ _ _ (sound rank rankBound) join.infiniband.group_size_pos
    (rows rank rankBound)

section Runs

variable (kept : join.ShuffleKept hash_partition) {rank : Nat} (rankBound : rank < n)
include rankBound

/-- A rank that gets the left table from the shuffle has one that can be sent. -/
theorem supported_of_produces_left
    {shuffled_left : Table}
    (produces : Produces n eager ((join.shuffle_call .left).program hash_partition gpu) rank
      shuffled_left) :
    (shuffle kept .left).Supported := by
  by_contra unsupported
  obtain ⟨_, _, _, stopped, _⟩ :=
    (shuffle kept .left).attempt_program_unsupported eager gpu unsupported
  exact stopped.not_produces rankBound shuffled_left produces

/-- A rank that gets both tables from the shuffle has tables that can be sent. -/
theorem supported_of_produces
    (narrow : (shuffle kept .left).Narrow)
    {tables : Table × Table}
    (produces : Produces n eager (join.shuffle_program hash_partition gpu) rank tables) :
    ∀ side, (shuffle kept side).Supported := by
  have left : (shuffle kept .left).Supported := by
    by_contra unsupported
    obtain ⟨_, _, _, stopped, _⟩ :=
      (shuffle kept .left).attempt_program_unsupported eager gpu unsupported
    have interrupted : Attempt (shuffle kept .left).Allocates n eager (Arrivals.none ranks)
        (join.shuffle_program hash_partition gpu) _ _ _ := stopped.bind_error
    exact interrupted.not_produces rankBound tables produces
  intro side
  cases side with
  | left => exact left
  | right =>
      by_contra unsupported
      obtain ⟨_, _, _, stopped, _⟩ :=
        (shuffle kept .right).attempt_program_unsupported eager gpu unsupported
      have first : Attempt (ShuffleAllocates kept) n eager (Arrivals.none ranks) _ _ _ _ :=
        ((shuffle kept .left).attempt_program gpu left narrow).mono
          fun allocates => allocates .left
      have second : Attempt (ShuffleAllocates kept) n eager (Arrivals.none ranks) _ _ _ _ :=
        stopped.mono fun allocates => allocates .right
      have interrupted : Attempt (ShuffleAllocates kept) n eager (Arrivals.none ranks)
          (join.shuffle_program hash_partition gpu) _ _ _ := first.bind second.bind_error
      exact interrupted.not_produces rankBound tables produces

/-- A rank gets the communicated tables from the shuffle, if it gets any. -/
theorem eq_of_produces_shuffle
    (narrow : ∀ side, (shuffle kept side).Narrow)
    (supported : ∀ side, (shuffle kept side).Supported)
    {tables : Table × Table}
    (produces : Produces n eager (join.shuffle_program hash_partition gpu) rank tables) :
    tables = ((shuffle kept .left).communicated gpu rank,
      (shuffle kept .right).communicated gpu rank) := by
  have attempt : Attempt (ShuffleAllocates kept) n eager (Arrivals.none ranks)
      (join.shuffle_program hash_partition gpu) _ _ _ :=
    attempt_shuffle kept gpu supported narrow
  exact attempt.eq_of_produces rankBound produces

/-- If all columns can be created, every rank gets the communicated tables. -/
theorem produces_shuffle
    (narrow : ∀ side, (shuffle kept side).Narrow)
    (supported : ∀ side, (shuffle kept side).Supported)
    (allocates : ShuffleAllocates kept) :
    Produces n eager (join.shuffle_program hash_partition gpu) rank
      ((shuffle kept .left).communicated gpu rank,
        (shuffle kept .right).communicated gpu rank) := by
  have phase : Phase n eager (Arrivals.none ranks) (join.shuffle_program hash_partition gpu)
      _ _ _ := (attempt_shuffle kept gpu supported narrow).phase allocates
  exact ((Settles.of_returning phase).returns.produces_iff rankBound).mpr rfl

theorem produces_left
    (narrow : (shuffle kept .left).Narrow)
    (supported : (shuffle kept .left).Supported)
    (allocates : (shuffle kept .left).Allocates) :
    ∃ shuffled_left,
      Produces n eager ((join.shuffle_call .left).program hash_partition gpu) rank
        shuffled_left :=
  ⟨_, ((Settles.of_returning ((shuffle kept .left).phase_program gpu supported narrow
    allocates)).returns.produces_iff rankBound).mpr rfl⟩

end Runs

section Inputs

variable (skips : hash_partition.SkipsEmpty hash)
  (sound : ∀ side rank, rank < n → ((join.input side).table rank).Sound)
include skips sound

theorem shuffle_iff
    (side : Side)
    {rank : Nat}
    (rankBound : rank < n) :
    WellAddressed join.infiniband.group_size
        ((join.shuffle_call side).passed_offsets hash_partition rank) ↔
      0 < ((join.input side).table rank).num_rows :=
  Shuffle.wellAddressed_iff skips (join.shuffle_call side) (sound side rank rankBound)

omit sound in
/-- The offsets of all batches are in range exactly for tables with rows, but for the end of
the last batch. -/
theorem batches_iff
    {table : Table}
    (nonnegative : 0 ≤ table.num_rows)
    (on_columns : List Nat) :
    (∀ ibatch, ibatch < join.over_decom_factor →
      BatchPassed join.over_decom_factor (join.batches_offset hash_partition table on_columns)
        join.nvlink_partition_size ibatch) ↔ 0 < table.num_rows :=
  skips.batchPassed_iff nonnegative on_columns _ _ join.nvlink_partition_size_pos
    join.over_decom_factor_pos

omit sound in
/-- The end of the last batch is never in range. -/
theorem not_batches
    {table : Table}
    (nonnegative : 0 ≤ table.num_rows)
    (on_columns : List Nat) :
    ¬ ∀ ibatch, ibatch < join.over_decom_factor →
      BatchAddressed (join.batches_offset hash_partition table on_columns)
        join.nvlink_partition_size ibatch := fun addressed =>
  skips.not_batchAddressed nonnegative on_columns _ _ join.nvlink_partition_size_pos
    join.over_decom_factor_pos (addressed _ (Nat.sub_lt join.over_decom_factor_pos Nat.one_pos))

variable {kept : join.ShuffleKept hash_partition}

/-- The tables that a rank gets from a shuffle of tables with rows. -/
theorem num_rows_shuffled
    (gpu : Gpu)
    {side : Side}
    (rows : ∀ rank, rank < n → 0 < ((join.input side).table rank).num_rows)
    {rank : Nat}
    (rankBound : rank < n) :
    ((shuffle kept side).communicated gpu rank).num_rows =
      toSizeType (join.shuffled_rows hash side rank).length := by
  have partitioned := partitioned_of_rows skips (sound side) rows
  have whole : (shuffle kept side).Whole := partitioned.whole
  rw [whole.num_rows_communicated gpu rankBound, received_rows_of_partitioned partitioned rankBound]

theorem narrow_of_rows
    {side : Side}
    (rows : ∀ rank, rank < n → 0 < ((join.input side).table rank).num_rows) :
    (shuffle kept side).Narrow :=
  (partitioned_of_rows skips (sound side) rows).whole.narrow

/-- The offsets of the shuffle are in range if all tables that are shuffled have rows. -/
theorem ShufflesRows.right_shuffle
    (rows : join.ShufflesRows kept)
    (several : join.nvlink_partition_size ≠ n)
    {rank : Nat}
    (rankBound : rank < n)
    (produces : ∃ shuffled_left,
      Produces n eager ((join.shuffle_call .left).program hash_partition gpu) rank
        shuffled_left) :
    WellAddressed join.infiniband.group_size
      ((join.shuffle_call .right).passed_offsets hash_partition rank) := by
  obtain ⟨_, produced⟩ := produces
  have supported := supported_of_produces_left kept rankBound produced
  exact (shuffle_iff skips sound .right rankBound).mpr
    (rows.right_input several supported rank rankBound)

/-- If the offsets of the shuffle are in range and all its columns can be created, all tables
that are shuffled have rows. -/
theorem OffsetsInRange.shufflesRows
    {addressed : List Int → Nat → Nat → Prop}
    (inRange : join.OffsetsInRange hash_partition gpu eager addressed)
    (allocates : join.nvlink_partition_size ≠ n → ShuffleAllocates kept) :
    join.ShufflesRows kept := by
  have left : join.nvlink_partition_size ≠ n → ∀ rank, rank < n →
      0 < ((join.input .left).table rank).num_rows := fun several rank rankBound =>
    (shuffle_iff skips sound .left rankBound).mp (inRange.left_shuffle several rank rankBound)
  refine ⟨left, fun several supported rank rankBound => ?_⟩
  have produces : ∃ shuffled_left,
      Produces n eager ((join.shuffle_call .left).program hash_partition gpu) rank shuffled_left :=
    produces_left kept rankBound (narrow_of_rows skips sound (left several)) supported
      (allocates several .left)
  exact (shuffle_iff skips sound .right rankBound).mp
    (inRange.right_shuffle several rank rankBound produces)

omit skips sound in
/-- The tables of all ranks have rows if they are shuffled and can be sent. -/
theorem ShufflesRows.rows
    (rows : join.ShufflesRows kept)
    (several : join.nvlink_partition_size ≠ n)
    (supported : ∀ side, (shuffle kept side).Supported) :
    ∀ side rank, rank < n → 0 < ((join.input side).table rank).num_rows := by
  intro side
  cases side with
  | left => exact rows.left_input several
  | right => exact rows.right_input several (supported .left)

/-- If all columns can be created, a rank that comes to the batches exchanges tables with a
number of rows that is not negative. -/
theorem exists_exchanges
    (rows : join.ShufflesRows kept)
    (allocates : join.nvlink_partition_size ≠ n → ShuffleAllocates kept)
    (reached : ¬ join.SkipsBatches kept)
    (gpu : Gpu)
    (eager : Eagerness ranks)
    {rank : Nat}
    (rankBound : rank < n) :
    ∃ tables, join.Exchanges hash_partition gpu eager rank tables ∧
      0 ≤ tables.1.num_rows ∧ 0 ≤ tables.2.num_rows := by
  unfold Exchanges
  split
  · exact ⟨_, rfl, (sound .left rank rankBound).num_rows_nonneg,
      (sound .right rank rankBound).num_rows_nonneg⟩
  · rename_i several
    have supported : ∀ side, (shuffle kept side).Supported := by
      by_contra unsupported
      exact reached (.inr ⟨several, unsupported⟩)
    have inputs := rows.rows several supported
    have narrow : ∀ side, (shuffle kept side).Narrow := fun side =>
      narrow_of_rows skips sound (inputs side)
    have nonnegative : ∀ side, 0 ≤ ((shuffle kept side).communicated gpu rank).num_rows := by
      intro side
      have whole : (shuffle kept side).Whole :=
        (partitioned_of_rows skips (sound side) (inputs side)).whole
      exact whole.num_rows_communicated_nonneg gpu rankBound (allocates several side rank rankBound)
    exact ⟨_, produces_shuffle kept rankBound narrow supported (allocates several),
      nonnegative .left, nonnegative .right⟩

/-- The tables that a rank exchanges have rows if all tables that are partitioned do. -/
theorem AlwaysRows.exchanged
    (rows : join.AlwaysRows hash kept)
    (grouped : join.nvlink_partition_size ≠ 1)
    {rank : Nat}
    (rankBound : rank < n)
    {tables : Table × Table}
    (exchanges : join.Exchanges hash_partition gpu eager rank tables) :
    0 < tables.1.num_rows ∧ 0 < tables.2.num_rows := by
  unfold Exchanges at exchanges
  split at exchanges
  · rename_i single
    rw [exchanges]
    exact ⟨rows.unshuffled single grouped .left rank rankBound,
      rows.unshuffled single grouped .right rank rankBound⟩
  · rename_i several
    have supported := supported_of_produces kept rankBound
      (narrow_of_rows skips sound (rows.left_input several)) exchanges
    have inputs := rows.rows several supported
    have shuffled := rows.shuffled several grouped supported
    rw [eq_of_produces_shuffle kept rankBound (fun side => narrow_of_rows skips sound (inputs side))
      supported exchanges]
    constructor
    · rw [num_rows_shuffled skips sound gpu (inputs .left) rankBound]
      exact shuffled .left rank rankBound
    · rw [num_rows_shuffled skips sound gpu (inputs .right) rankBound]
      exact shuffled .right rank rankBound

/-- If the offsets of all batches are in range but for the end of the last one, and all columns
of the shuffle can be created, all tables that are partitioned have rows. -/
theorem OffsetsInRange.alwaysRows
    (inRange : join.OffsetsInRange hash_partition gpu eager (BatchPassed join.over_decom_factor))
    (allocates : join.nvlink_partition_size ≠ n → ShuffleAllocates kept) :
    join.AlwaysRows hash kept := by
  have rows : join.ShufflesRows kept := inRange.shufflesRows skips sound allocates
  have exchanged : join.nvlink_partition_size ≠ 1 → ∀ rank, rank < n →
      ∀ tables, join.Exchanges hash_partition gpu eager rank tables →
        0 ≤ tables.1.num_rows ∧ 0 ≤ tables.2.num_rows →
          0 < tables.1.num_rows ∧ 0 < tables.2.num_rows := by
    rintro grouped rank rankBound tables exchanges ⟨left, right⟩
    have batches := inRange.batches grouped rank rankBound tables exchanges
    exact ⟨(batches_iff skips left _).mp fun ibatch ibatchBound => (batches ibatch ibatchBound).1,
      (batches_iff skips right _).mp fun ibatch ibatchBound => (batches ibatch ibatchBound).2⟩
  refine ⟨rows, fun single grouped side rank rankBound => ?_,
    fun several grouped supported side rank rankBound => ?_⟩
  · have exchanges : join.Exchanges hash_partition gpu eager rank (join.tables rank) := by
      rw [Exchanges, if_pos single]
    have both := exchanged grouped rank rankBound _ exchanges
      ⟨(sound .left rank rankBound).num_rows_nonneg,
        (sound .right rank rankBound).num_rows_nonneg⟩
    cases side with
    | left => exact both.1
    | right => exact both.2
  · have inputs := rows.rows several supported
    have reached : ¬ join.SkipsBatches kept := by
      rintro (alone | ⟨_, unsupported⟩)
      · exact grouped alone
      · exact unsupported supported
    obtain ⟨tables, exchanges, nonnegative⟩ :=
      exists_exchanges skips sound rows allocates reached gpu eager rankBound
    have both := exchanged grouped rank rankBound tables exchanges nonnegative
    rw [Exchanges, if_neg several] at exchanges
    rw [eq_of_produces_shuffle kept rankBound (fun side => narrow_of_rows skips sound (inputs side))
      supported exchanges] at both
    rw [← num_rows_shuffled skips sound gpu (inputs side) rankBound]
    cases side with
    | left => exact both.1
    | right => exact both.2

end Inputs

end JoinCall

/-- `shuffle_on` gives `AllToAllCommunicator` one offset for each member of the group and one
more, in order, and they are read in range, if and only if the tables of all ranks have rows.
So does the join, in its shuffle and, but for the end of the last batch, in all batches, if all
tables that it partitions have rows, which their rows and hash values tell. The end of the last
batch is out of range whenever a rank comes to the batches. If no column of a negative size is
asked for, both conditions are also necessary. -/
theorem offsets_in_range_iff
    (hash_partition : HashPartition)
    (hash : HashId → Nat → List Cell → Nat)
    (skips : hash_partition.SkipsEmpty hash)
    (gpu : Gpu) :
    (∀ (n : Nat) (shuffle : Shuffle n), (∀ rank, rank < n → (shuffle.input rank).Sound) →
      ((∀ rank, rank < n →
          WellAddressed shuffle.layout.group_size (shuffle.passed_offsets hash_partition rank)) ↔
        ∀ rank, rank < n → 0 < (shuffle.input rank).num_rows)) ∧
    ∀ (n : Nat) (join : JoinCall n) (eager : Eagerness ranks),
      (∀ side rank, rank < n → ((join.input side).table rank).Sound) →
      (join.ShufflesRows (join.shuffleKept_of_skips skips) ∧
          join.SkipsBatches (join.shuffleKept_of_skips skips) →
        join.OffsetsInRange hash_partition gpu eager BatchAddressed) ∧
      (join.AlwaysRows hash (join.shuffleKept_of_skips skips) →
        join.OffsetsInRange hash_partition gpu eager (BatchPassed join.over_decom_factor)) ∧
      ((join.nvlink_partition_size ≠ n →
          JoinCall.ShuffleAllocates (join.shuffleKept_of_skips skips)) →
        (join.OffsetsInRange hash_partition gpu eager BatchAddressed →
          join.ShufflesRows (join.shuffleKept_of_skips skips) ∧
            join.SkipsBatches (join.shuffleKept_of_skips skips)) ∧
        (join.OffsetsInRange hash_partition gpu eager (BatchPassed join.over_decom_factor) →
          join.AlwaysRows hash (join.shuffleKept_of_skips skips))) := by
  constructor
  · intro n shuffle sound
    exact forall₂_congr fun rank rankBound =>
      Shuffle.wellAddressed_iff skips shuffle (sound rank rankBound)
  · intro n join eager sound
    let kept := join.shuffleKept_of_skips skips
    have left_shuffle : join.ShufflesRows kept → join.nvlink_partition_size ≠ n →
        ∀ rank, rank < n → WellAddressed join.infiniband.group_size
          ((join.shuffle_call .left).passed_offsets hash_partition rank) :=
      fun rows several rank rankBound =>
        (JoinCall.shuffle_iff skips sound .left rankBound).mpr
          (rows.left_input several rank rankBound)
    refine ⟨?strictly, ?passed, fun allocates => ⟨fun inRange => ?only_skipped,
      fun inRange => inRange.alwaysRows skips sound allocates⟩⟩
    case strictly =>
      rintro ⟨rows, skipped⟩
      refine ⟨left_shuffle rows, fun several rank rankBound =>
        rows.right_shuffle skips sound several rankBound, fun grouped rank rankBound tables
          exchanges => ?_⟩
      obtain ⟨several, unsupported⟩ := skipped.resolve_left grouped
      rw [JoinCall.Exchanges, if_neg several] at exchanges
      have narrow : (JoinCall.shuffle kept .left).Narrow :=
        JoinCall.narrow_of_rows skips sound (rows.left_input several)
      exact absurd (JoinCall.supported_of_produces kept rankBound narrow exchanges) unsupported
    case passed =>
      intro rows
      refine ⟨left_shuffle rows.toShufflesRows, fun several rank rankBound =>
        rows.right_shuffle skips sound several rankBound, fun grouped rank rankBound tables
          exchanges ibatch ibatchBound => ?_⟩
      have both : 0 < tables.1.num_rows ∧ 0 < tables.2.num_rows :=
        rows.exchanged skips sound grouped rankBound exchanges
      exact ⟨(JoinCall.batches_iff skips both.1.le _).mpr both.1 ibatch ibatchBound,
        (JoinCall.batches_iff skips both.2.le _).mpr both.2 ibatch ibatchBound⟩
    case only_skipped =>
      have rows : join.ShufflesRows kept := inRange.shufflesRows skips sound allocates
      refine ⟨rows, ?_⟩
      by_contra reached
      obtain ⟨tables, exchanges, nonnegative, _⟩ :=
        JoinCall.exists_exchanges skips sound rows allocates reached gpu eager join.n_pos
      have grouped : join.nvlink_partition_size ≠ 1 := fun alone => reached (.inl alone)
      exact JoinCall.not_batches skips nonnegative _ fun ibatch ibatchBound =>
        (inRange.batches grouped 0 join.n_pos tables exchanges ibatch ibatchBound).1

/-- Hash partitioning, by way of the rows of a table that has some. -/
def sorted_unless_empty (hash : HashId → Nat → List Cell → Nat) : HashPartition :=
  fun input on_columns num_partitions hash_function hash_seed =>
    if 0 < input.num_rows then
      sorted_by_hash hash input on_columns num_partitions hash_function hash_seed
    else (input, [])

theorem skipsEmpty_sorted_unless_empty (hash : HashId → Nat → List Cell → Nat) :
    HashPartition.SkipsEmpty (sorted_unless_empty hash) hash := by
  have sorted : ∀ {input : Table}, 0 < input.num_rows →
      ∀ on_columns num_partitions hash_function hash_seed,
        sorted_unless_empty hash input on_columns num_partitions hash_function hash_seed =
          sorted_by_hash hash input on_columns num_partitions hash_function hash_seed :=
    fun rows _ _ _ _ => if_pos rows
  have kept : ∀ {input : Table}, ¬ 0 < input.num_rows →
      ∀ on_columns num_partitions hash_function hash_seed,
        sorted_unless_empty hash input on_columns num_partitions hash_function hash_seed =
          (input, []) :=
    fun none _ _ _ _ => if_neg none
  have rearranged : ∀ (input : Table) on_columns num_partitions hash_function hash_seed,
      0 < num_partitions → ((List.range num_partitions).flatMap fun index =>
        input.rows.filter fun row =>
          hash hash_function hash_seed (keyOf on_columns row) % num_partitions = index).Perm
            input.rows := fun _ _ _ _ _ positive =>
    Relational.flatMap_filter_perm fun row _ => Nat.mod_lt _ positive
  constructor
  case schema =>
    intro input on_columns num_partitions hash_function hash_seed
    by_cases rows : 0 < input.num_rows
    · rw [sorted rows]
      exact Table.schema_ofRows _ _
    · rw [kept rows]
  case num_rows =>
    intro input on_columns num_partitions hash_function hash_seed positive
    by_cases rows : 0 < input.num_rows
    · have columns : input.schema = [] → ((List.range num_partitions).flatMap fun index =>
          input.rows.filter fun row =>
            hash hash_function hash_seed (keyOf on_columns row) % num_partitions = index) = [] := by
        intro none
        rw [List.map_eq_nil_iff.mp none] at rows
        contradiction
      rw [sorted rows, sorted_by_hash, Table.num_rows_ofRows_of_columns columns,
        (rearranged input on_columns _ hash_function hash_seed positive).length_eq,
        Table.length_rows, Int.toNat_of_nonneg (by omega)]
    · rw [kept rows]
  case empty =>
    intro input on_columns num_partitions hash_function hash_seed none
    rw [kept (by omega)]
  case offsets =>
    intro input on_columns num_partitions hash_function hash_seed _ rows
    rw [sorted rows]
    simp [sorted_by_hash]
  case offsets_sorted =>
    intro input on_columns num_partitions hash_function hash_seed positive rows
    rw [sorted rows]
    refine List.pairwise_append.mpr ⟨offsets_sorted_by_hash _ _ _ _ _ _,
      List.pairwise_singleton _ _, fun offset member last lastMember => ?_⟩
    obtain rfl := List.mem_singleton.mp lastMember
    obtain ⟨index, range, rfl⟩ := List.mem_map.mp member
    have inside := Relational.length_flatMap_range_le (fun index =>
      input.rows.filter fun row =>
        hash hash_function hash_seed (keyOf on_columns row) % num_partitions = index)
      (List.mem_range.mp range).le
    rw [(rearranged input on_columns _ hash_function hash_seed positive).length_eq,
      Table.length_rows] at inside
    omega
  case partitioned =>
    intro input on_columns num_partitions hash_function hash_seed sound positive rows
    rw [sorted rows]
    exact partitioned_sorted_by_hash hash sound on_columns positive hash_function hash_seed

/-- Two ranks that shuffle bytes. -/
def bytesShuffle (bytes : Nat → List Byte) : Shuffle 2 where
  layout := .whole 2 Nat.two_pos
  schema := [⟨.INT8, 0⟩]
  input := fun rank => .ofBytes (bytes rank)
  same_schema := fun _ _ => rfl
  on_columns := [0]
  options := []
  group_by_batch := false
  hash_function := .HASH_IDENTITY
  hash_seed := 0

/-- Two ranks that have rows are handled, and so are four ranks that have rows for both of
their NVLink domains. -/
theorem offsets_in_range_four_ranks :
    (∀ rank, rank < 2 → WellAddressed 2
      ((bytesShuffle fun _ => [1, 2]).passed_offsets (sorted_unless_empty sumOfBytes) rank)) ∧
    (domainsJoin fun _ _ => [0, 1, 2, 3]).OffsetsInRange (sorted_unless_empty sumOfBytes)
      storingGpu (fun _ _ _ _ => false) (BatchPassed 2) := by
  obtain ⟨shuffled, joined⟩ := offsets_in_range_iff (sorted_unless_empty sumOfBytes) sumOfBytes
    (skipsEmpty_sorted_unless_empty sumOfBytes) storingGpu
  have two : (Table.ofBytes [1, 2]).Sound ∧ 0 < (Table.ofBytes [1, 2]).num_rows :=
    ⟨(Table.wellFormed_ofBytes (by decide)).sound, by decide⟩
  have four : (Table.ofBytes [0, 1, 2, 3]).Sound ∧ 0 < (Table.ofBytes [0, 1, 2, 3]).num_rows :=
    ⟨(Table.wellFormed_ofBytes (by decide)).sound, by decide⟩
  constructor
  · exact (shuffled 2 (bytesShuffle fun _ => [1, 2]) fun _ _ => two.1).mpr fun _ _ => two.2
  · exact (joined 4 (domainsJoin fun _ _ => [0, 1, 2, 3]) (fun _ _ _ _ => false)
      fun _ _ _ => four.1).2.1 {
        left_input := fun _ _ _ => four.2
        right_input := fun _ _ _ _ => four.2
        unshuffled := fun _ _ _ _ _ => four.2
        shuffled := fun _ _ _ side => by cases side <;> decide +kernel }

/-- A rank without a row passes one offset instead of three to the shuffle of two ranks, and
the offsets of the last batch of a join end behind all offsets. -/
theorem offsets_missing_two_ranks :
    (∀ rank, rank < 2 → ((bytesShuffle fun rank =>
        if rank = 0 then [1, 2] else []).input rank).Sound) ∧
      (bytesShuffle fun rank => if rank = 0 then [1, 2] else []).passed_offsets
          (sorted_unless_empty sumOfBytes) 1 = [0] ∧
      ¬ (∀ rank, rank < 2 →
        WellAddressed 2 ((bytesShuffle fun rank => if rank = 0 then [1, 2] else []).passed_offsets
          (sorted_unless_empty sumOfBytes) rank)) ∧
      ¬ (bytesJoin 2 Nat.two_pos fun _ _ => [1, 2]).OffsetsInRange
        (sorted_unless_empty sumOfBytes) storingGpu (fun _ _ _ _ => false) BatchAddressed := by
  have single : (bytesShuffle fun rank => if rank = 0 then [1, 2] else []).passed_offsets
      (sorted_unless_empty sumOfBytes) 1 = [0] := rfl
  refine ⟨?_, single, fun addressed => ?_, fun inRange => ?_⟩
  · intro rank _
    refine (Table.wellFormed_ofBytes ?_).sound
    dsimp only
    split <;> decide
  · have length := (addressed 1 Nat.one_lt_two).length
    rw [single] at length
    contradiction
  · let join := bytesJoin 2 Nat.two_pos fun _ _ => [1, 2]
    have domain : join.nvlink_partition_size = 2 := rfl
    have several : join.nvlink_partition_size ≠ 1 := by
      rw [domain]
      decide
    have exchanges : join.Exchanges (sorted_unless_empty sumOfBytes) storingGpu
        (fun _ _ _ _ => false) 0 (join.tables 0) := by
      rw [JoinCall.Exchanges, if_pos domain]
    have nonnegative : 0 ≤ (join.tables 0).1.num_rows := by decide
    exact JoinCall.not_batches (skipsEmpty_sorted_unless_empty sumOfBytes) nonnegative _
      fun ibatch ibatchBound =>
        (inRange.batches several 0 Nat.two_pos (join.tables 0) exchanges ibatch ibatchBound).1

end DistributedJoin
