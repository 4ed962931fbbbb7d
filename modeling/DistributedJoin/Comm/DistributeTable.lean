import DistributedJoin.Comm.AllToAllCommunicator
import DistributedJoin.Spmd.Transfers

/-!
# Distributing and collecting tables

`distribute_table` sends the rows of a table on the root to all ranks, and
`collect_tables` sends the rows of all ranks to the root. Both handle one column
after the other.
-/

namespace DistributedJoin

open Device Spmd

namespace TypeId

/-- The value of the enumerator in `cudf::type_id`. -/
def value : TypeId → Int
  | INT8 => 1 | INT16 => 2 | INT32 => 3 | INT64 => 4
  | UINT8 => 5 | UINT16 => 6 | UINT32 => 7 | UINT64 => 8
  | FLOAT32 => 9 | FLOAT64 => 10 | BOOL8 => 11
  | TIMESTAMP_DAYS => 12 | TIMESTAMP_SECONDS => 13 | TIMESTAMP_MILLISECONDS => 14
  | TIMESTAMP_MICROSECONDS => 15 | TIMESTAMP_NANOSECONDS => 16
  | DURATION_DAYS => 17 | DURATION_SECONDS => 18 | DURATION_MILLISECONDS => 19
  | DURATION_MICROSECONDS => 20 | DURATION_NANOSECONDS => 21
  | STRING => 23 | DECIMAL32 => 25 | DECIMAL64 => 26

/-- The enumerator with a value. -/
def ofValue : Int → TypeId
  | 2 => INT16 | 3 => INT32 | 4 => INT64
  | 5 => UINT8 | 6 => UINT16 | 7 => UINT32 | 8 => UINT64
  | 9 => FLOAT32 | 10 => FLOAT64 | 11 => BOOL8
  | 12 => TIMESTAMP_DAYS | 13 => TIMESTAMP_SECONDS | 14 => TIMESTAMP_MILLISECONDS
  | 15 => TIMESTAMP_MICROSECONDS | 16 => TIMESTAMP_NANOSECONDS
  | 17 => DURATION_DAYS | 18 => DURATION_SECONDS | 19 => DURATION_MILLISECONDS
  | 20 => DURATION_MICROSECONDS | 21 => DURATION_NANOSECONDS
  | 23 => STRING | 25 => DECIMAL32 | 26 => DECIMAL64
  | _ => INT8

@[simp] theorem ofValue_value (id : TypeId) : ofValue id.value = id := by
  cases id <;> rfl

end TypeId

/-- The root sends a value to all workers. -/
def bcast_actions (value : Int) (mpi_size mpi_rank : Nat) : List (Action ranks .mpi) :=
  scatter mpi_size (fun _ => value) (fun _ => 0) mpi_rank

/-- Every worker sends a value to the root, which remembers the rank it comes
from. -/
def gather_actions (value : Int) (mpi_size mpi_rank : Nat) : List (Action ranks .mpi) :=
  gather mpi_size (fun _ => value) id mpi_rank

/-- Tell all ranks a value of the root. -/
def MPI_Bcast (value : Int) (communicator : Communicator) : Process ranks Int := do
  Process.perform (bcast_actions value communicator.mpi_size communicator.mpi_rank)
  let arrivals ← Process.await (I := ranks) .mpi
  pure (arrivals.foldl (fun _ arrival => arrival.2) value)

/-- Tell the root a value of every rank. Returns the array of all values, which
is filled in on the root only. -/
def MPI_Gather (value : Int) (communicator : Communicator) :
    Process ranks (List Int) := do
  Process.perform (gather_actions value communicator.mpi_size communicator.mpi_rank)
  let arrivals ← Process.await (I := ranks) .mpi
  let values := List.replicate communicator.mpi_size (-1)
  if communicator.mpi_rank = 0 then
    pure (((0, value) :: arrivals).foldl
      (fun values arrival => values.set arrival.1 arrival.2) values)
  else pure values

/-- The number of rows of a local table. -/
def get_local_table_size (global_table_size : Int) (mpi_rank mpi_size : Nat) : Int :=
  let local_table_size := global_table_size / mpi_size
  if (mpi_rank : Int) < global_table_size % mpi_size then local_table_size + 1
  else local_table_size

/-- The first row of the local table of a rank in the global table. -/
def get_start_idx (global_size : Int) (irank mpi_size : Nat) : Int :=
  min (irank : Int) (global_size % mpi_size) + global_size / mpi_size * irank

/-- `cudf::make_fixed_width_column` and `cudf::size_of` do not accept other
types. -/
def require_fixed_width (dtype : DataType) : Process ranks Unit :=
  if dtype.id = .STRING then .fail "Invalid, non-fixed-width type." else .pure ()

/-- A fixed-width column with the given contents. -/
def fixed_width_column (dtype : DataType) (size : Int) (head : List Byte) : Column where
  type := dtype
  size := size
  offset := 0
  head := head
  null_mask := none
  child_offsets := []
  child_chars := []

/-- A copy from a buffer of the root to another one, as it is recorded. -/
def copy_note (icol : Nat) (bytes : List Byte) : Note :=
  .copied (.plain (.data icol)) 0 (.plain (.data icol)) 0 bytes.length

/-- The elements of a column of the global table that are sent to a rank. -/
def distributed_transfer
    (icol : Nat)
    (global_col : Column)
    (dtype_size mpi_size irank : Nat) : Transfer where
  source := .plain (.data icol)
  start := get_start_idx global_col.size irank mpi_size * dtype_size
  bytes := readRange global_col.head
    (get_start_idx global_col.size irank mpi_size * dtype_size)
    (get_local_table_size global_col.size irank mpi_size * dtype_size).toNat
  count := get_local_table_size global_col.size irank mpi_size
  element_size := dtype_size

/-- The room for the elements of a local column. -/
def local_landing (icol : Nat) (local_size : Int) (dtype_size : Nat) : Landing where
  target := .plain (.data icol)
  start := 0
  count := local_size
  element_size := dtype_size

/-- The root sends every worker its elements of a column. -/
def distribute_actions
    (icol : Nat)
    (global_col : Column)
    (local_size : Int)
    (dtype_size mpi_size mpi_rank : Nat) : List (Action ranks .communicator) :=
  scatter mpi_size (distributed_transfer icol global_col dtype_size mpi_size)
    (fun _ => local_landing icol local_size dtype_size) mpi_rank

/-- Distribute a column from the root to all ranks. Returns the writes to the
local column. -/
def distribute_cols
    (icol : Nat)
    (global_col : Column)
    (local_dtype : DataType)
    (local_size : Int)
    (communicator : Communicator) : Process ranks (List Write) := do
  let dtype_size := local_dtype.id.size_of
  -- the root fills its own column by a copy from the beginning of the global one
  let copied := readRange global_col.head 0
    (get_local_table_size global_col.size 0 communicator.mpi_size * dtype_size).toNat
  Communicator.start
  Process.perform (distribute_actions icol global_col local_size dtype_size
    communicator.mpi_size communicator.mpi_rank)
  if communicator.mpi_rank = 0 then
    Process.observe (I := ranks) (copy_note icol copied)
  let arrivals ← Communicator.stop
  if communicator.mpi_rank = 0 then pure [⟨0, copied⟩]
  else pure (arrivals.map fun arrival => ⟨arrival.1.start, arrival.2.bytes⟩)

/-- Tell the workers the types of the columns. The message has the size of the
type id, so every rank keeps the scale it has itself. -/
def bcast_columns_dtype
    (global_table : Table)
    (ncols : Int)
    (communicator : Communicator) : Process ranks (List DataType) :=
  (List.range ncols.toNat).mapM fun icol => do
    let own : DataType :=
      if communicator.mpi_rank = 0 then (global_table.column icol).type else ⟨.INT8, 0⟩
    let id ← MPI_Bcast own.id.value communicator
    pure ⟨.ofValue id, own.scale⟩

/-- Allocate the columns of the local tables and send the rows of the root. -/
def distribute_columns
    (gpu : Gpu)
    (global_table : Table)
    (columns_dtype : List DataType)
    (local_table_size : Int)
    (communicator : Communicator) : Process ranks Table := do
  forM columns_dtype require_fixed_width
  (List.range columns_dtype.length).mapM fun icol => do
    let dtype := columns_dtype.getD icol ⟨.INT8, 0⟩
    let writes ← distribute_cols icol (global_table.column icol) dtype local_table_size
      communicator
    pure (fixed_width_column dtype local_table_size
      (contents gpu.uninitialized writes (local_table_size.toNat * dtype.id.size_of)))

/-- Distribute a table from the root to all ranks. -/
def distribute_table
    (gpu : Gpu)
    (global_table : Table)
    (communicator : Communicator) : Process ranks Table := do
  let global_table_size ←
    MPI_Bcast (if communicator.mpi_rank = 0 then global_table.num_rows else -1) communicator
  let ncols ←
    MPI_Bcast (if communicator.mpi_rank = 0 then (global_table.length : Int) else -1)
      communicator
  let columns_dtype ← bcast_columns_dtype global_table ncols communicator
  distribute_columns gpu global_table columns_dtype
    (get_local_table_size global_table_size communicator.mpi_rank communicator.mpi_size)
    communicator

/-- The elements of a column that are sent to the root. -/
def collected_transfer
    (icol : Nat)
    (column : Column)
    (nrows : Int)
    (dtype_size : Nat) : Transfer where
  source := .plain (.data icol)
  start := 0
  bytes := readRange column.head 0 (nrows * dtype_size).toNat
  count := nrows
  element_size := dtype_size

/-- The room for the elements of a rank in a merged column. -/
def merged_landing
    (icol : Nat)
    (table_nrows table_nrows_scan : List Int)
    (dtype_size irank : Nat) : Landing where
  target := .plain (.data icol)
  start := table_nrows_scan.getD irank 0 * dtype_size
  count := table_nrows.getD irank 0
  element_size := dtype_size

/-- Every worker sends its elements of a column to the root. -/
def collect_actions
    (icol : Nat)
    (column : Column)
    (nrows : Int)
    (table_nrows table_nrows_scan : List Int)
    (dtype_size mpi_size mpi_rank : Nat) : List (Action ranks .communicator) :=
  gather mpi_size (fun _ => collected_transfer icol column nrows dtype_size)
    (merged_landing icol table_nrows table_nrows_scan dtype_size) mpi_rank

/-- Send a column of all ranks to the root. Returns the writes to the merged
column. -/
def collect_cols
    (icol : Nat)
    (column : Column)
    (nrows : Int)
    (table_nrows table_nrows_scan : List Int)
    (communicator : Communicator) : Process ranks (List Write) := do
  require_fixed_width column.type
  let dtype_size := column.type.id.size_of
  let copied := readRange column.head 0 (table_nrows.getD 0 0 * dtype_size).toNat
  Communicator.start
  Process.perform (collect_actions icol column nrows table_nrows table_nrows_scan
    dtype_size communicator.mpi_size communicator.mpi_rank)
  if communicator.mpi_rank = 0 then
    Process.observe (I := ranks) (copy_note icol copied)
  let arrivals ← Communicator.stop
  if communicator.mpi_rank = 0 then
    pure (⟨0, copied⟩ :: arrivals.map fun arrival => ⟨arrival.1.start, arrival.2.bytes⟩)
  else pure []

/-- The positions in the merged table where the rows of the ranks go, in
`cudf::size_type`. -/
def scan_table_nrows (table_nrows : List Int) : List Int :=
  table_nrows.scanl addSizeType 0

/-- Allocate the merged table and send the rows of all ranks to the root, which
knows the sizes of their tables. -/
def merge_tables
    (gpu : Gpu)
    (table : Table)
    (table_nrows : List Int)
    (communicator : Communicator) : Process ranks (Option Table) := do
  let table_nrows_scan := scan_table_nrows table_nrows
  let merged_rows := table_nrows_scan.getLastD 0
  if communicator.mpi_rank = 0 then
    forM table fun column => do
      require_fixed_width column.type
      if merged_rows < 0 then Process.fail "Column size cannot be negative."
  let merged_columns ← (List.range table.length).mapM fun icol => do
    let column := table.column icol
    let writes ← collect_cols icol column table.num_rows table_nrows table_nrows_scan
      communicator
    pure (fixed_width_column column.type merged_rows
      (contents gpu.uninitialized writes
        (merged_rows.toNat * column.type.id.size_of)))
  pure (if communicator.mpi_rank = 0 then some merged_columns else none)

/-- Merge the tables of all ranks on the root. Returns the merged table on the
root only. -/
def collect_tables
    (gpu : Gpu)
    (table : Table)
    (communicator : Communicator) : Process ranks (Option Table) := do
  let table_nrows ← MPI_Gather table.num_rows communicator
  merge_tables gpu table table_nrows communicator

end DistributedJoin
