import DistributedJoin.Device.Heap
import DistributedJoin.Device.Integers
import DistributedJoin.Spmd.Runs
import DistributedJoin.Spmd.Transfers

/-!
# The NCCL communicator

Between `start` and `stop` every call of `send` and `recv` gets a communication
buffer whose size is rounded up to a multiple of 256 bytes. NCCL transfers whole
communication buffers when the group ends; `stop` then copies what was received
to the buffers of the caller and frees the communication buffers.
-/

namespace DistributedJoin

open Device Spmd

/-- The number of bytes of a buffer, as an expression of type `std::int64_t`. -/
def byte_count (count element_size : Int) : Int := toInt64 (count * element_size)

/-- `aligned_size` in `send` and `recv`. -/
def aligned_size (count element_size : Int) : Nat :=
  toSizeT (toInt64 ((toInt64 (byte_count count element_size + 255)).tdiv 256 * 256))

/-- `aligned_size` in `stop`, computed from the entry of `comm_buffer_sizes`. -/
def aligned_buffer_size (comm_buffer_size : Nat) : Nat :=
  (comm_buffer_size + 255) % 2 ^ 64 / 256 * 256

/-- A number of bytes rounded up to a multiple of 256. -/
def padded (bytes : Nat) : Nat := (bytes + 255) / 256 * 256

theorem le_padded (bytes : Nat) : bytes ≤ padded bytes := by
  unfold padded
  omega

/-- A call of `ncclSend` or `ncclRecv` for bytes of type `ncclChar`. -/
inductive Operation
  | ncclSend (buffer : Int) (size : Nat) (dest : Nat)
  | ncclRecv (buffer : Int) (size : Nat) (source : Nat)
  deriving DecidableEq

/-- What NCCL transfers between ranks, and where a received message goes. -/
abbrev nccl : Interface := .single (List Byte) Region

namespace Operation

/-- The size of a transfer to a rank. -/
def sizeTo (dest : Nat) : Operation → Option Nat
  | .ncclSend _ size peer => if peer = dest then some size else none
  | .ncclRecv _ _ _ => none

/-- The size of a transfer that is expected from a rank. -/
def sizeFrom (source : Nat) : Operation → Option Nat
  | .ncclSend _ _ _ => none
  | .ncclRecv _ size peer => if peer = source then some size else none

/-- What an operation contributes when its group ends. -/
def action (heap : Heap) : Operation → Action nccl ()
  | .ncclSend buffer size dest => .send dest (heap.read buffer size)
  | .ncclRecv buffer size source => .post source ⟨buffer, size⟩

end Operation

/-- A received message is written to its region. -/
def landed (arrival : Region × List Byte) : Write :=
  ⟨arrival.1.start, arrival.2.take arrival.1.size⟩

/-- `NCCLCommunicator`, with the device and the pending NCCL calls of its process. -/
structure NCCLCommunicator where
  comm_buffers : List Int
  comm_buffer_sizes : List Nat
  recv_buffers : List Int
  recv_buffer_idx : List Nat
  /-- The NCCL calls since `ncclGroupStart`. -/
  operations : List Operation
  device : Cuda

namespace NCCLCommunicator

/-- `NCCLCommunicator::start` -/
def start (self : NCCLCommunicator) : NCCLCommunicator :=
  { self with
    operations := []
    comm_buffers := []
    comm_buffer_sizes := []
    recv_buffers := []
    recv_buffer_idx := [] }

/-- `NCCLCommunicator::send` -/
def send
    (self : NCCLCommunicator)
    (allocator : Allocator)
    (buf count element_size : Int)
    (dest : Nat) : NCCLCommunicator :=
  let size := aligned_size count element_size
  let (comm_buffer, device) := self.device.allocate allocator size
  { self with
    comm_buffers := self.comm_buffers ++ [comm_buffer]
    comm_buffer_sizes := self.comm_buffer_sizes ++ [toSizeT (byte_count count element_size)]
    operations := self.operations ++ [.ncclSend comm_buffer size dest]
    device := device.memcpy comm_buffer buf (toSizeT (byte_count count element_size)) }

/-- `NCCLCommunicator::recv` -/
def recv
    (self : NCCLCommunicator)
    (allocator : Allocator)
    (buf count element_size : Int)
    (source : Nat) : NCCLCommunicator :=
  let size := aligned_size count element_size
  let (comm_buffer, device) := self.device.allocate allocator size
  { self with
    recv_buffers := self.recv_buffers ++ [buf]
    recv_buffer_idx := self.recv_buffer_idx ++ [self.comm_buffers.length]
    comm_buffers := self.comm_buffers ++ [comm_buffer]
    comm_buffer_sizes := self.comm_buffer_sizes ++ [toSizeT (byte_count count element_size)]
    operations := self.operations ++ [.ncclRecv comm_buffer size source]
    device := device }

/-- `ncclGroupEnd`: the pending operations are launched and complete. -/
def ncclGroupEnd (self : NCCLCommunicator) : Process nccl NCCLCommunicator :=
  (Process.perform (self.operations.map (Operation.action self.device.heap)) >>=
      fun _ => Process.await (I := nccl) ()) >>= fun arrivals =>
    Process.pure
      { self with
        device := { self.device with
          heap := self.device.heap.writeAll (arrivals.map landed) } }

/-- The first loop of `stop`: copy every received buffer to its destination. -/
def copy_received (self : NCCLCommunicator) : Option Cuda :=
  (List.range self.recv_buffers.length).foldlM
    (fun device ibuffer => do
      let idx ← self.recv_buffer_idx[ibuffer]?
      let recv_buffer ← self.recv_buffers[ibuffer]?
      let comm_buffer ← self.comm_buffers[idx]?
      let comm_buffer_size ← self.comm_buffer_sizes[idx]?
      some (device.memcpy recv_buffer comm_buffer comm_buffer_size))
    self.device

/-- The second loop of `stop`: free every communication buffer. -/
def deallocate_buffers (self : NCCLCommunicator) (device : Cuda) : Option Cuda :=
  (List.range self.comm_buffers.length).foldlM
    (fun device ibuffer => do
      let comm_buffer ← self.comm_buffers[ibuffer]?
      let comm_buffer_size ← self.comm_buffer_sizes[ibuffer]?
      device.deallocate ⟨comm_buffer, aligned_buffer_size comm_buffer_size⟩)
    device

/-- The two loops of `stop`. An access beyond the end of a vector and a
deallocation of what is not allocated have no outcome. -/
def settle (self : NCCLCommunicator) : Option NCCLCommunicator := do
  let copied ← self.copy_received
  let freed ← self.deallocate_buffers copied
  some { self with device := freed }

/-- `NCCLCommunicator::stop` -/
def stop (self : NCCLCommunicator) : Process nccl NCCLCommunicator :=
  self.ncclGroupEnd >>= fun received =>
    match received.settle with
    | some settled => Process.pure settled
    | none => Process.fail "undefined behaviour"

end NCCLCommunicator

/-- A call of `send` or `recv`. -/
inductive Call
  | send (buf count element_size : Int) (dest : Nat)
  | recv (buf count element_size : Int) (source : Nat)
  deriving DecidableEq

namespace Call

/-- The buffer of the caller. -/
def buf : Call → Int
  | .send buf _ _ _ => buf
  | .recv buf _ _ _ => buf

def count : Call → Int
  | .send _ count _ _ => count
  | .recv _ count _ _ => count

def element_size : Call → Int
  | .send _ _ element_size _ => element_size
  | .recv _ _ element_size _ => element_size

/-- The number of bytes of the buffer of the caller. -/
def bytes (call : Call) : Nat := (call.count * call.element_size).toNat

/-- The caller's buffer consists of whole elements in memory that it has allocated. -/
structure Valid (call : Call) (live : Multiset Region) : Prop where
  count_nonneg : 0 ≤ call.count
  element_size_nonneg : 0 ≤ call.element_size
  within : (Region.mk call.buf call.bytes).Within live

/-- Make a call. -/
def perform (allocator : Allocator) (self : NCCLCommunicator) : Call → NCCLCommunicator
  | .send buf count element_size dest => self.send allocator buf count element_size dest
  | .recv buf count element_size source => self.recv allocator buf count element_size source

/-- The message or the receive that a call stands for. -/
def action : Call → Action (.single Call Call) ()
  | .send buf count element_size dest => .send dest (.send buf count element_size dest)
  | .recv buf count element_size source => .post source (.recv buf count element_size source)

end Call

/-- Device pointers are virtual addresses of at most 57 bits. -/
def addressLimit : Int := 2 ^ 57

/-- What the program of one rank does up to the end of a group: it changes its
memory, and makes calls for buffers in the regions it has allocated. -/
structure Round where
  compute : Heap → Heap
  live : Multiset Region
  calls : List Call
  addressable : ∀ region ∈ live, 0 ≤ region.start ∧
    region.start + region.size ≤ addressLimit
  valid : ∀ call ∈ calls, call.Valid live

namespace Round

/-- The state in which a group begins. -/
def prepare (round : Round) (self : NCCLCommunicator) : NCCLCommunicator :=
  { self with
    device := { self.device with
      heap := round.compute self.device.heap
      live := round.live } }

/-- A group of calls from a given state. -/
def group
    (round : Round)
    (allocator : Allocator)
    (self : NCCLCommunicator) : Process nccl NCCLCommunicator :=
  (round.calls.foldl (Call.perform allocator) self.start).stop

end Round

/-- Successive groups. The result has the states after the groups. -/
def groups
    (allocator : Allocator) :
    List Round → NCCLCommunicator → Process nccl (List NCCLCommunicator)
  | [], _ => .pure []
  | round :: rest, self =>
      round.group allocator (round.prepare self) >>= fun after =>
        groups allocator rest after >>= fun later => Process.pure (after :: later)

end DistributedJoin
