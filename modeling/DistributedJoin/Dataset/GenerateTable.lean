import DistributedJoin.Comm.DistributeTable
import DistributedJoin.Comm.Placement

/-!
# Generating tables

Every rank generates a build table and a probe table, moves the keys and the row ids to a
range of its own, and sends every rank the same number of rows.
-/

namespace DistributedJoin

open Device Spmd

namespace TypeId

/-- The integer types without a sign. -/
def unsigned : TypeId → Bool
  | UINT8 | UINT16 | UINT32 | UINT64 => true
  | _ => false

/-- The integer with the given bytes. -/
def read (id : TypeId) (bytes : List Byte) : Int :=
  if id.unsigned then Device.unsigned bytes else decode bytes

/-- The type has the integer. -/
def Represents (id : TypeId) (value : Int) : Prop :=
  if id.unsigned then 0 ≤ value ∧ value < 256 ^ id.size_of
  else -256 ^ id.size_of ≤ 2 * value ∧ 2 * value < 256 ^ id.size_of

instance (id : TypeId) (value : Int) : Decidable (id.Represents value) :=
  inferInstanceAs (Decidable (if id.unsigned then 0 ≤ value ∧ value < 256 ^ id.size_of
    else -256 ^ id.size_of ≤ 2 * value ∧ 2 * value < 256 ^ id.size_of))

theorem read_encode
    {id : TypeId}
    {value : Int}
    (represents : id.Represents value) :
    id.read (encode id.size_of value) = value := by
  rw [Represents] at represents
  rw [read]
  split at represents
  · rename_i unsigned
    rw [if_pos unsigned, unsigned_encode]
    exact Int.emod_eq_of_lt represents.1 represents.2
  · rename_i signed
    rw [if_neg signed, decode_encode]
    apply Int.bmod_eq_of_le_mul_two
    · push_cast
      omega
    · push_cast
      omega

end TypeId

namespace Column

/-- The integers in the data buffer. -/
def integers (column : Column) : List Int :=
  column.head_elements.map column.type.id.read

end Column

namespace GenerateTable

/-- The arguments of `generate_tables_distributed`, apart from those that only the draws
depend on. -/
structure Arguments where
  KEY_T : TypeId
  PAYLOAD_T : TypeId
  build_table_nrows_per_rank : Nat
  probe_table_nrows_per_rank : Nat
  rand_max_per_rank : Int

/-- The keys that `generate_input_tables` draws on a rank. -/
structure Keys where
  build : List Int
  probe : List Int

/-- A column of integers. -/
def integer_column (id : TypeId) (size : Nat) (values : List Int) : Column :=
  fixed_width_column ⟨id, 0⟩ size (encodeWords id.size_of values)

/-- `generate_payload_functor`, which calls `thrust::sequence`. -/
def generate_payload_functor (nelements : Nat) : List Int :=
  (List.range nelements).map fun element : Nat => (element : Int)

/-- Add a constant to all elements, in the type of the column. -/
def add_constant_to_column (column : Column) (constant : Int) : Column :=
  { column with
    head := encodeWords column.type.id.size_of
      ((decodeWords column.type.id.size_of column.head column.size.toNat).map (· + constant)) }

/-- Where the rows for each rank start. -/
def table_offset (nrows_per_rank mpi_size : Nat) : List Int :=
  (List.range (mpi_size + 1)).map fun irank => ((nrows_per_rank / mpi_size * irank : Nat) : Int)

/-- The plans for a table of fixed-width columns, whose first column has the given number. -/
def append_to_all_to_all_comm_buffers
    (first : Nat)
    (input : Table)
    (send_offsets recv_offsets : List Int)
    (compression_options : List ColumnCompressionOptions) : List AllToAllCommBuffer :=
  (List.range input.length).map fun icol => {
    ptr := .data (first + icol)
    send_buffer := (input.column icol).head
    send_offsets := send_offsets
    recv_offsets := recv_offsets
    dtype := (input.column icol).type
    compression_method := (compression_options.getD icol .none).compression_method
    cascaded_format := (compression_options.getD icol .none).cascaded_format }

/-- The table for the received rows, with what has been written to its memory. -/
def received_table
    (gpu : Gpu)
    (first : Nat)
    (input : Table)
    (recv_offset : List Int)
    (memory : Memory) : Table :=
  (List.range input.length).map fun icol =>
    fixed_width_column (input.column icol).type (toSizeType (recv_offset.getLastD 0))
      (contents gpu.uninitialized (writesTo (.plain (.data (first + icol))) memory)
        ((toSizeType (recv_offset.getLastD 0)).toNat * (input.column icol).type.id.size_of))

namespace Arguments

variable (arguments : Arguments)

/-- Generate the tables of a rank from the keys that it has drawn. -/
def generate_build_probe_tables (keys : Keys) : Table × Table :=
  ([integer_column arguments.KEY_T arguments.build_table_nrows_per_rank keys.build,
      integer_column arguments.PAYLOAD_T arguments.build_table_nrows_per_rank
        (generate_payload_functor arguments.build_table_nrows_per_rank)],
    [integer_column arguments.KEY_T arguments.probe_table_nrows_per_rank keys.probe,
      integer_column arguments.PAYLOAD_T arguments.probe_table_nrows_per_rank
        (generate_payload_functor arguments.probe_table_nrows_per_rank)])

/-- `rand_max_per_rank * mpi_rank`, in `KEY_T` or in `int`, whichever is wider. -/
def key_constant (mpi_rank : Nat) : Int :=
  (arguments.rand_max_per_rank * mpi_rank).bmod (256 ^ max 4 arguments.KEY_T.size_of)

/-- Make sure that the ranges of a table are correct. -/
def add_constants (table : Table) (nrows_per_rank mpi_rank : Nat) : Table :=
  (table.modify 0 (add_constant_to_column · (arguments.key_constant mpi_rank))).modify 1
    (add_constant_to_column · (toInt (nrows_per_rank * mpi_rank)))

/-- The tables of a rank before the shuffle. -/
def pre_shuffle_tables (keys : Keys) (mpi_rank : Nat) : Table × Table :=
  let tables := arguments.generate_build_probe_tables keys
  (arguments.add_constants tables.1 arguments.build_table_nrows_per_rank mpi_rank,
    arguments.add_constants tables.2 arguments.probe_table_nrows_per_rank mpi_rank)

/-- Generate the tables of all ranks, with the keys that the rank has drawn. -/
def generate_tables_distributed
    (gpu : Gpu)
    (keys : Keys)
    (communicator : Communicator) : Process ranks (Table × Table) := do
  let mpi_size := communicator.mpi_size
  let comm_group := CommunicationGroup.create communicator.mpi_rank mpi_size 1
  let pre_shuffle := arguments.pre_shuffle_tables keys communicator.mpi_rank
  let build_table_offset := table_offset arguments.build_table_nrows_per_rank mpi_size
  let probe_table_offset := table_offset arguments.probe_table_nrows_per_rank mpi_size
  let build_table_recv_offset ← communicate_sizes build_table_offset comm_group
  let probe_table_recv_offset ← communicate_sizes probe_table_offset comm_group
  let all_to_all_comm_buffers :=
    append_to_all_to_all_comm_buffers 0 pre_shuffle.1 build_table_offset
        build_table_recv_offset (generate_none_compression_options pre_shuffle.1) ++
      append_to_all_to_all_comm_buffers 2 pre_shuffle.2 probe_table_offset
        probe_table_recv_offset (generate_none_compression_options pre_shuffle.2)
  let communicated ←
    communicate_buffers gpu all_to_all_comm_buffers comm_group communicator true
  let memory := received communicated.2
  pure (received_table gpu 0 pre_shuffle.1 build_table_recv_offset memory,
    received_table gpu 2 pre_shuffle.2 probe_table_recv_offset memory)

end Arguments

end GenerateTable

end DistributedJoin
