import DistributedJoin.Comm.Launch
import DistributedJoin.Comm.StringsColumn

/-!
# All-to-all communication of tables

`AllToAllCommunicator` redistributes the rows of a table over a group of ranks.
Every fixed-width column is one buffer to communicate; a string column is two,
the sizes of its strings and their characters. Rows that stay on the rank can be
copied instead of being sent.
-/

namespace DistributedJoin

open Device Spmd

/-- The communication of one table, as prepared by the constructor. -/
structure AllToAllCommunicator where
  input_table : Table
  comm_group : CommunicationGroup
  communicator : Communicator
  explicit_copy_to_current_rank : Bool
  send_offsets : List Int
  /-- Start row in the communicated table for the rows of each member. -/
  recv_offsets : List Int
  /-- By column, start position in the characters to send to each member. -/
  string_send_offsets : List (List Int)
  /-- By column, start position for the characters of each member. -/
  string_recv_offsets : List (List Int)
  string_sizes_to_send : List (List Int)
  compression_options : List ColumnCompressionOptions

/-- A copy of bytes within the memory of a rank. -/
structure Copy where
  target : Buffer
  target_start : Int
  source : Buffer
  source_start : Int
  bytes : List Byte

namespace AllToAllCommunicator

/-- Exchange the number of rows and of characters with the members of the
group, and calculate the sizes of the strings to send. -/
def create
    (input_table : Table)
    (offsets : List Int)
    (comm_group : CommunicationGroup)
    (communicator : Communicator)
    (compression_options : List ColumnCompressionOptions)
    (explicit_copy_to_current_rank : Bool) :
    Process ranks AllToAllCommunicator := do
  let recv_offsets ← communicate_sizes offsets comm_group
  let string_offsets ← gather_string_offsets input_table offsets comm_group
  pure {
    input_table := input_table
    comm_group := comm_group
    communicator := communicator
    explicit_copy_to_current_rank := explicit_copy_to_current_rank
    send_offsets := offsets
    recv_offsets := recv_offsets
    string_send_offsets := string_offsets.map (·.1)
    string_recv_offsets := string_offsets.map (·.2)
    string_sizes_to_send := calculate_string_sizes_from_offsets input_table
      (offsets.headD 0) (offsets.getLastD 0)
    compression_options := compression_options }

variable (self : AllToAllCommunicator)

/-- The compression options of a column. -/
def options (icol : Nat) : ColumnCompressionOptions :=
  self.compression_options.getD icol .none

/-- The device buffer with the sizes of the strings to send. -/
def sizes_buffer (icol : Nat) : List Byte :=
  encodeWords 4 (self.string_sizes_to_send.getD icol [])

/-- The plan for a fixed-width column. -/
def data_plan (icol : Nat) : AllToAllCommBuffer where
  ptr := .data icol
  send_buffer := (self.input_table.column icol).head
  send_offsets := self.send_offsets
  recv_offsets := self.recv_offsets
  dtype := (self.input_table.column icol).type
  compression_method := (self.options icol).compression_method
  cascaded_format := (self.options icol).cascaded_format

/-- The plan for the sizes of the strings of a column. -/
def sizes_plan (icol : Nat) : AllToAllCommBuffer where
  ptr := .sizes icol
  send_buffer := self.sizes_buffer icol
  send_offsets := self.send_offsets
  recv_offsets := self.recv_offsets
  dtype := ⟨.INT32, 0⟩
  compression_method := ((self.options icol).child 0).compression_method
  cascaded_format := ((self.options icol).child 0).cascaded_format

/-- The plan for the characters of a string column. -/
def chars_plan (icol : Nat) : AllToAllCommBuffer where
  ptr := .chars icol
  send_buffer := (self.input_table.column icol).child_chars
  send_offsets := self.string_send_offsets.getD icol []
  recv_offsets := self.string_recv_offsets.getD icol []
  dtype := ⟨.INT8, 0⟩
  compression_method := ((self.options icol).child 1).compression_method
  cascaded_format := ((self.options icol).child 1).cascaded_format

/-- The plans for all columns. -/
def append_to_all_to_all_comm_buffers : List AllToAllCommBuffer :=
  (List.range self.input_table.length).flatMap fun icol =>
    if (self.input_table.column icol).type.id ≠ .STRING then [self.data_plan icol]
    else [self.sizes_plan icol, self.chars_plan icol]

/-- The index of the rank in the group. -/
def local_idx : Nat := self.comm_group.get_local_idx

/-- The copy of the elements of a fixed-width column that stay on the rank. -/
def data_copy (icol : Nat) : Copy where
  target := .plain (.data icol)
  target_start := self.recv_offsets.getD self.local_idx 0 *
    (self.input_table.column icol).type.id.size_of
  source := .plain (.data icol)
  source_start := self.send_offsets.getD self.local_idx 0 *
    (self.input_table.column icol).type.id.size_of
  bytes := readRange (self.input_table.column icol).head
    (self.send_offsets.getD self.local_idx 0 *
      (self.input_table.column icol).type.id.size_of)
    (countAt self.recv_offsets self.local_idx *
      (self.input_table.column icol).type.id.size_of).toNat

/-- The copy of the sizes of the strings that stay on the rank. -/
def sizes_copy (icol : Nat) : Copy where
  target := .plain (.sizes icol)
  target_start := self.recv_offsets.getD self.local_idx 0 * 4
  source := .plain (.sizes icol)
  source_start := self.send_offsets.getD self.local_idx 0 * 4
  bytes := readRange (self.sizes_buffer icol)
    (self.send_offsets.getD self.local_idx 0 * 4)
    (countAt self.recv_offsets self.local_idx * 4).toNat

/-- The copy of the characters that stay on the rank. -/
def chars_copy (icol : Nat) : Copy where
  target := .plain (.chars icol)
  target_start := (self.string_recv_offsets.getD icol []).getD self.local_idx 0
  source := .plain (.chars icol)
  source_start := (self.string_send_offsets.getD icol []).getD self.local_idx 0
  bytes := readRange (self.input_table.column icol).child_chars
    ((self.string_send_offsets.getD icol []).getD self.local_idx 0)
    (countAt (self.string_send_offsets.getD icol []) self.local_idx).toNat

/-- The copies of all columns. -/
def copies : List Copy :=
  (List.range self.input_table.length).flatMap fun icol =>
    if (self.input_table.column icol).type.id ≠ .STRING then [self.data_copy icol]
    else [self.sizes_copy icol, self.chars_copy icol]

/-- Copy the rows that stay on the rank. Returns the writes to device memory. -/
def copy_table_to_current_rank : Process ranks Memory :=
  self.copies.mapM fun copy => do
    Process.observe (I := ranks) (.copied copy.target copy.target_start copy.source
      copy.source_start copy.bytes.length)
    pure (copy.target, ⟨copy.target_start, copy.bytes⟩)

/-- The number of rows of the communicated table, as the columns are created
with it. -/
def communicated_rows : Int := toSizeType (self.recv_offsets.getLastD 0)

/-- The sizes with which the columns of the communicated table are created: the rows of
fixed-width columns, and the characters, the offsets and the rows of string columns. The
characters of no strings are an empty column. -/
def requested_sizes : List Int :=
  (List.range self.input_table.length).flatMap fun icol =>
    if (self.input_table.column icol).type.id ≠ .STRING then [self.communicated_rows]
    else
      (if self.communicated_rows = 0 then []
        else [toSizeType ((self.string_recv_offsets.getD icol []).getLastD 0)]) ++
      [toSizeType (self.recv_offsets.getLastD 0 + 1), self.communicated_rows]

/-- Create the columns of the communicated table. A column of a negative size is an error. -/
def allocate_communicated_table_helper : Process ranks Unit :=
  forM self.requested_sizes fun size =>
    if size < 0 then Process.fail "Column size cannot be negative." else pure ()

/-- The columns are created if and only if no size is negative. -/
theorem allocate_communicated_table_helper_eq :
    self.allocate_communicated_table_helper =
      if ∃ size ∈ self.requested_sizes, size < 0 then
        .fail "Column size cannot be negative."
      else pure () := by
  unfold allocate_communicated_table_helper
  induction self.requested_sizes with
  | nil => rfl
  | cons size rest inductionHypothesis =>
      rw [List.forM_cons, inductionHypothesis]
      simp only [List.exists_mem_cons_iff]
      by_cases negative : size < 0
      · simp only [negative, true_or, if_true]
        rfl
      · simp only [negative, false_or, if_false]
        rfl

/-- Allocate the communicated table, and fill in the rows that stay on the rank
if they are not sent. Returns the writes to device memory. -/
def allocate_communicated_table : Process ranks Memory := do
  self.allocate_communicated_table_helper
  if self.explicit_copy_to_current_rank then self.copy_table_to_current_rank
  else pure []

/-- A column of the communicated table, with what has been written to its
memory. -/
def communicated_column (gpu : Gpu) (memory : Memory) (icol : Nat) : Column :=
  if (self.input_table.column icol).type.id ≠ .STRING then {
    type := (self.input_table.column icol).type
    size := self.communicated_rows
    offset := 0
    head := contents gpu.uninitialized (writesTo (.plain (.data icol)) memory)
      (self.communicated_rows.toNat *
        (self.input_table.column icol).type.id.size_of)
    null_mask := none
    child_offsets := []
    child_chars := [] }
  else {
    type := (self.input_table.column icol).type
    size := self.communicated_rows
    offset := 0
    head := []
    null_mask := none
    child_offsets := calculate_string_offsets_from_sizes
      (decodeWords 4
        (contents gpu.uninitialized (writesTo (.plain (.sizes icol)) memory)
          ((self.recv_offsets.getLastD 0).toNat * 4))
        self.communicated_rows.toNat)
    child_chars := contents gpu.uninitialized
      (writesTo (.plain (.chars icol)) memory)
      (toSizeType
        ((self.string_recv_offsets.getD icol []).getLastD 0)).toNat }

/-- The communicated table. -/
def communicated_table (gpu : Gpu) (memory : Memory) : Table :=
  (List.range self.input_table.length).map (self.communicated_column gpu memory)

/-- Communicate the rows and rebuild the offsets of string columns. Returns the
communicated table. -/
def launch_communication (gpu : Gpu) (memory : Memory) : Process ranks Table := do
  let received ← communicate_and_postprocess gpu
    self.append_to_all_to_all_comm_buffers self.comm_group self.communicator
    (!self.explicit_copy_to_current_rank)
  pure (self.communicated_table gpu (memory ++ received))

end AllToAllCommunicator

/-- The way callers use the class: prepare the communication, allocate the
communicated table and launch the communication. -/
def redistribute
    (gpu : Gpu)
    (input_table : Table)
    (offsets : List Int)
    (comm_group : CommunicationGroup)
    (communicator : Communicator)
    (compression_options : List ColumnCompressionOptions)
    (explicit_copy_to_current_rank : Bool) : Process ranks Table := do
  let all_to_all_communicator ← AllToAllCommunicator.create input_table offsets
    comm_group communicator compression_options explicit_copy_to_current_rank
  let memory ← all_to_all_communicator.allocate_communicated_table
  all_to_all_communicator.launch_communication gpu memory

end DistributedJoin
