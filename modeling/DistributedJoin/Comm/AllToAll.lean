import DistributedJoin.Comm.Compression
import DistributedJoin.Comm.Sizes

/-!
# All-to-all communication of buffers

`all_to_all_comm` sends every buffer of a list of plans to the members of a
group, either as it is or compressed partition by partition, and
`postprocess_all_to_all_comm` decompresses what has arrived.
-/

namespace DistributedJoin

open Device Spmd

/-- The elements between two offsets of a buffer, as they are passed to
`send`. -/
def transferAt
    (source : Buffer)
    (data : List Byte)
    (offset : List Int)
    (item_size : Nat)
    (local_idx : Nat) : Transfer where
  source := source
  start := offset.getD local_idx 0 * item_size
  bytes := readRange data (offset.getD local_idx 0 * item_size)
    (countAt offset local_idx * item_size).toNat
  count := countAt offset local_idx
  element_size := item_size

/-- The room between two offsets of a buffer, as it is passed to `recv`. -/
def landingAt
    (target : Buffer)
    (offset : List Int)
    (item_size : Nat)
    (local_idx : Nat) : Landing where
  target := target
  start := offset.getD local_idx 0 * item_size
  count := countAt offset local_idx
  element_size := item_size

/-- Send the items between consecutive offsets to the members of the group. -/
def send_data_by_offset
    (source : Buffer)
    (data : List Byte)
    (offset : List Int)
    (item_size : Nat)
    (comm_group : CommunicationGroup)
    (communicator : Communicator)
    (self_send : Bool) : Process ranks Unit :=
  Process.sendEach (I := ranks) .communicator
    (((List.range comm_group.size).filter fun local_idx =>
        self_send || comm_group.get_global_rank local_idx != communicator.mpi_rank).map
      fun local_idx =>
        (comm_group.get_global_rank local_idx,
          transferAt source data offset item_size local_idx))

/-- Receive the items sent by `send_data_by_offset`. -/
def recv_data_by_offset
    (target : Buffer)
    (offset : List Int)
    (item_size : Nat)
    (comm_group : CommunicationGroup)
    (communicator : Communicator)
    (self_recv : Bool) : Process ranks Unit :=
  Process.postEach (I := ranks) .communicator
    (((List.range comm_group.size).filter fun local_idx =>
        self_recv || comm_group.get_global_rank local_idx != communicator.mpi_rank).map
      fun local_idx =>
        (comm_group.get_global_rank local_idx,
          landingAt target offset item_size local_idx))

/-- A plan for the communication of one buffer. -/
structure AllToAllCommBuffer where
  /-- The column buffer that is sent, and the one that is received into. -/
  ptr : DevicePtr
  /-- The contents of the buffer that is sent. -/
  send_buffer : List Byte
  send_offsets : List Int
  recv_offsets : List Int
  dtype : DataType
  compression_method : CompressionMethod
  cascaded_format : CascadedFormat
  compressed_send_buffer : List Byte := []
  compressed_send_offsets : List Int := []
  compressed_recv_offsets : List Int := []

namespace AllToAllCommBuffer

variable (buffer : AllToAllCommBuffer)

/-- The size of the elements of the buffer. -/
abbrev item_size : Nat := buffer.dtype.id.size_of

/-- Address and number of elements of every partition that is compressed; the
rank's own partition may be left out. -/
def uncompressed
    (comm_group : CommunicationGroup)
    (mpi_rank : Nat)
    (include_current_rank : Bool) : List (Int × Int) :=
  (List.range comm_group.size).map fun local_idx =>
    if !include_current_rank && comm_group.get_global_rank local_idx == mpi_rank then
      (0, 0)
    else
      (buffer.send_offsets.getD local_idx 0 * buffer.item_size,
        toSizeType (countAt buffer.send_offsets local_idx))

end AllToAllCommBuffer

/-- The compressed partitions copied into one buffer. -/
def merge_compressed_buffers
    (gpu : Gpu)
    (comm_group : CommunicationGroup)
    (mpi_rank : Nat)
    (include_current_rank : Bool)
    (compressed_buffers : List (List Byte))
    (compressed_send_offsets : List Int) : List Byte :=
  contents gpu.uninitialized
    (((List.range comm_group.size).filter fun local_idx =>
        include_current_rank ||
          comm_group.get_global_rank local_idx != mpi_rank).map fun local_idx =>
      ⟨compressed_send_offsets.getD local_idx 0,
        compressed_buffers.getD local_idx []⟩)
    (compressed_send_offsets.getLastD 0).toNat

/-- Send and receive one buffer, in a group of its own unless the communicator
groups by batch. Returns what has arrived. -/
def exchange_by_offset
    (buffer : Buffer)
    (data : List Byte)
    (send_offset recv_offset : List Int)
    (item_size : Nat)
    (comm_group : CommunicationGroup)
    (communicator : Communicator)
    (include_current_rank : Bool) :
    Process ranks (List (Landing × Transfer)) := do
  if !communicator.group_by_batch then Communicator.start
  send_data_by_offset buffer data send_offset item_size comm_group communicator
    include_current_rank
  recv_data_by_offset buffer recv_offset item_size comm_group communicator
    include_current_rank
  if !communicator.group_by_batch then Communicator.stop else pure []

/-- The communication of one buffer. Returns the plan with what is known about
the compressed buffers, and what has arrived. -/
def communicate_buffer
    (gpu : Gpu)
    (comm_group : CommunicationGroup)
    (communicator : Communicator)
    (include_current_rank : Bool)
    (buffer : AllToAllCommBuffer) :
    Process ranks (AllToAllCommBuffer × List (Landing × Transfer)) :=
  match buffer.compression_method with
  | .none => do
      let arrivals ← exchange_by_offset (.plain buffer.ptr) buffer.send_buffer
        buffer.send_offsets buffer.recv_offsets buffer.item_size comm_group
        communicator include_current_rank
      pure (buffer, arrivals)
  | .lz4 => .fail "buffer.compression_method == CompressionMethod::cascaded"
  | .cascaded =>
      match compression_functor gpu.codec buffer.dtype buffer.cascaded_format
          buffer.send_buffer
          (buffer.uncompressed comm_group communicator.mpi_rank
            include_current_rank) with
      | .error reason => .fail reason
      | .ok compressed_buffers => do
          let compressed_send_offsets := offsetsOf
            (compressed_buffers.map fun block => (block.length : Int))
          let compressed_recv_offsets ←
            communicate_sizes compressed_send_offsets comm_group
          let compressed_send_buffer := merge_compressed_buffers gpu comm_group
            communicator.mpi_rank include_current_rank compressed_buffers
            compressed_send_offsets
          let arrivals ← exchange_by_offset (.compressed buffer.ptr)
            compressed_send_buffer compressed_send_offsets compressed_recv_offsets
            1 comm_group communicator include_current_rank
          pure ({ buffer with
            compressed_send_buffer := compressed_send_buffer
            compressed_send_offsets := compressed_send_offsets
            compressed_recv_offsets := compressed_recv_offsets }, arrivals)

/-- Communicate all buffers. Returns the completed plans and what has arrived;
if the communicator groups by batch, nothing has arrived before the group
ends. -/
def all_to_all_comm
    (gpu : Gpu)
    (all_to_all_comm_buffers : List AllToAllCommBuffer)
    (comm_group : CommunicationGroup)
    (communicator : Communicator)
    (include_current_rank : Bool) :
    Process ranks (List AllToAllCommBuffer × List (Landing × Transfer)) := do
  let results ← all_to_all_comm_buffers.mapM
    (communicate_buffer gpu comm_group communicator include_current_rank)
  pure (results.map (·.1), results.flatMap (·.2))

/-- The writes to device memory, oldest first. -/
abbrev Memory := List (Buffer × Write)

/-- The writes to one buffer. -/
def writesTo (buffer : Buffer) (memory : Memory) : List Write :=
  memory.filterMap fun entry => if entry.1 = buffer then some entry.2 else none

/-- The writes made by receives. -/
def received (arrivals : List (Landing × Transfer)) : Memory :=
  arrivals.map fun arrival => (arrival.1.target, ⟨arrival.1.start, arrival.2.bytes⟩)

/-- Decompress one received buffer. -/
def decompress_buffer
    (gpu : Gpu)
    (comm_group : CommunicationGroup)
    (communicator : Communicator)
    (include_current_rank : Bool)
    (memory : Memory)
    (buffer : AllToAllCommBuffer) : Except String Memory :=
  if buffer.compression_method = .none then .ok []
  else do
    let compressed_recv_buffer := contents gpu.uninitialized
      (writesTo (.compressed buffer.ptr) memory)
      (buffer.compressed_recv_offsets.getLastD 0).toNat
    let outputs ← decompression_functor gpu.codec buffer.dtype
      ((List.range comm_group.size).map fun local_idx =>
        if !include_current_rank &&
            comm_group.get_global_rank local_idx == communicator.mpi_rank then
          ([], 0)
        else
          (readRange compressed_recv_buffer
              (buffer.compressed_recv_offsets.getD local_idx 0)
              (countAt buffer.compressed_recv_offsets local_idx).toNat,
            countAt buffer.recv_offsets local_idx))
    pure ((List.range comm_group.size).filterMap fun local_idx =>
      (outputs.getD local_idx none).map fun output =>
        (.plain buffer.ptr,
          ⟨buffer.recv_offsets.getD local_idx 0 * buffer.item_size, output⟩))

/-- Decompress all buffers that were sent compressed. Returns the writes to
memory. -/
def postprocess_all_to_all_comm
    (gpu : Gpu)
    (all_to_all_comm_buffers : List AllToAllCommBuffer)
    (comm_group : CommunicationGroup)
    (communicator : Communicator)
    (include_current_rank : Bool)
    (memory : Memory) : Except String Memory := do
  let outputs ← all_to_all_comm_buffers.mapM
    (decompress_buffer gpu comm_group communicator include_current_rank memory)
  pure outputs.flatten

/-- Communicate all buffers and wait for them: as one group if the communicator
groups by batch, and otherwise group by group. -/
def communicate_buffers
    (gpu : Gpu)
    (all_to_all_comm_buffers : List AllToAllCommBuffer)
    (comm_group : CommunicationGroup)
    (communicator : Communicator)
    (include_current_rank : Bool) :
    Process ranks (List AllToAllCommBuffer × List (Landing × Transfer)) := do
  if communicator.group_by_batch then Communicator.start
  let communicated ← all_to_all_comm gpu all_to_all_comm_buffers comm_group
    communicator include_current_rank
  let arrivals ← if communicator.group_by_batch then Communicator.stop else pure []
  pure (communicated.1, communicated.2 ++ arrivals)

/-- An error ends the rank. -/
def orFail {α : Type} : Except String α → Process ranks α
  | .ok value => .pure value
  | .error reason => .fail reason

/-- Communicate all buffers and decompress what has arrived. Returns the writes
to device memory. -/
def communicate_and_postprocess
    (gpu : Gpu)
    (all_to_all_comm_buffers : List AllToAllCommBuffer)
    (comm_group : CommunicationGroup)
    (communicator : Communicator)
    (include_current_rank : Bool) : Process ranks Memory := do
  let communicated ← communicate_buffers gpu all_to_all_comm_buffers comm_group
    communicator include_current_rank
  let memory := received communicated.2
  let outputs ← orFail (postprocess_all_to_all_comm gpu communicated.1 comm_group
    communicator include_current_rank memory)
  pure (memory ++ outputs)

end DistributedJoin
