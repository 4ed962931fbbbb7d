import DistributedJoin.Nccl.Communicator

/-!
# Communication buffers of a group

While the calls of a group are made, the four vectors of the communicator, the
pending operations and the device stay in step: every call has one communication
buffer, which meets no other region in use, and the buffer of a send has the
bytes of the caller's buffer.
-/

namespace DistributedJoin

open Device Spmd

/-- Up to 57 bits the sizes computed by `send`, `recv` and `stop` are those of
unbounded arithmetic. -/
theorem sizes_eq
    {count element_size : Int}
    (nonneg : 0 ≤ count * element_size)
    (small : count * element_size ≤ 2 ^ 57) :
    toSizeT (byte_count count element_size) = (count * element_size).toNat ∧
      aligned_size count element_size = padded (count * element_size).toNat ∧
      aligned_buffer_size (count * element_size).toNat =
        padded (count * element_size).toNat := by
  have bytes : byte_count count element_size = count * element_size :=
    toInt64_eq (by omega) (by omega)
  obtain ⟨size, sizeEquality⟩ := Int.eq_ofNat_of_zero_le nonneg
  unfold aligned_size aligned_buffer_size padded
  rw [bytes]
  rw [sizeEquality] at small ⊢
  have inner : toInt64 ((size : Int) + 255) = (size : Int) + 255 :=
    toInt64_eq (by omega) (by omega)
  rw [inner, Int.tdiv_eq_ediv_of_nonneg (by omega), toInt64_eq (by omega) (by omega)]
  have wide := toSizeT_eq (Int.natCast_nonneg size) (by omega)
  have rounded : (toSizeT (((size : Int) + 255) / 256 * 256) : Int) =
      ((size : Int) + 255) / 256 * 256 := toSizeT_eq (by omega) (by omega)
  omega

/-- A region within addressable memory is no larger than it. -/
theorem size_le_addressLimit
    {region : Region}
    {live : Multiset Region}
    (within : region.Within live)
    (addressable : ∀ other ∈ live, 0 ≤ other.start ∧
      other.start + other.size ≤ addressLimit) :
    (region.size : Int) ≤ addressLimit := by
  rcases Nat.eq_zero_or_pos region.size with empty | positive
  · rw [empty]
    decide
  · obtain ⟨low, lowMember, lowCovers⟩ := within region.start ⟨by omega, by omega⟩
    obtain ⟨high, highMember, highCovers⟩ := within (region.start + region.size - 1)
      ⟨by omega, by omega⟩
    have lowest := (addressable low lowMember).1
    have highest := (addressable high highMember).2
    have first := lowCovers.1
    have last := highCovers.2
    omega

namespace Call

/-- Whether the call is a `recv`. -/
def receives : Call → Bool
  | .send _ _ _ _ => false
  | .recv _ _ _ _ => true

/-- The NCCL call for a communication buffer. -/
def operation (call : Call) (buffer : Int) : Operation :=
  match call with
  | .send _ _ _ dest => .ncclSend buffer (padded call.bytes) dest
  | .recv _ _ _ source => .ncclRecv buffer (padded call.bytes) source

end Call

namespace Round

/-- The calls of a round are for buffers that fit into the address space. -/
theorem bytes_le (round : Round) {call : Call} (member : call ∈ round.calls) :
    0 ≤ call.count * call.element_size ∧ call.count * call.element_size ≤ 2 ^ 57 := by
  have valid := round.valid call member
  have nonneg := mul_nonneg valid.count_nonneg valid.element_size_nonneg
  have small := size_le_addressLimit valid.within round.addressable
  have bytes : ((call.count * call.element_size).toNat : Int) =
      call.count * call.element_size := Int.toNat_of_nonneg nonneg
  refine ⟨nonneg, ?_⟩
  rw [← bytes]
  exact small

end Round

/-- A call together with its communication buffer. -/
structure Placement where
  call : Call
  buffer : Int
  deriving DecidableEq

namespace Placement

/-- The region of the communication buffer. -/
def region (placement : Placement) : Region :=
  ⟨placement.buffer, padded placement.call.bytes⟩

/-- The NCCL call for the communication buffer. -/
def operation (placement : Placement) : Operation :=
  placement.call.operation placement.buffer

/-- The copy into the communication buffer of a send, by target, source and size. -/
def copyIn (placement : Placement) : Option (Int × Int × Nat) :=
  if placement.call.receives then none
  else some (placement.buffer, placement.call.buf, placement.call.bytes)

/-- The copy out of the communication buffer of a receive. -/
def copyOut (placement : Placement) : Option (Int × Int × Nat) :=
  if placement.call.receives then
    some (placement.call.buf, placement.buffer, placement.call.bytes)
  else none

/-- What the call asks of the device. -/
def commands (placement : Placement) : List Command :=
  .allocate placement.region ::
    placement.copyIn.toList.map fun copy => .memcpy copy.1 copy.2.1 copy.2.2

end Placement

/-- The receives among the calls of a group, with their positions. -/
def recvs (placed : List Placement) : List (Placement × Nat) :=
  placed.zipIdx.filter fun entry => entry.1.call.receives

theorem recvs_concat (placed : List Placement) (placement : Placement) :
    recvs (placed ++ [placement]) =
      recvs placed ++
        if placement.call.receives then [(placement, placed.length)] else [] := by
  unfold recvs
  rw [List.zipIdx_append, List.filter_append, Nat.zero_add]
  congr 1
  cases receives : placement.call.receives with
  | false => simp [receives]
  | true => simp [receives]

theorem getElem?_of_mem_recvs
    {placed : List Placement}
    {entry : Placement × Nat}
    (member : entry ∈ recvs placed) :
    placed[entry.2]? = some entry.1 ∧ entry.1.call.receives = true := by
  obtain ⟨indexed, receives⟩ := List.mem_filter.mp member
  exact ⟨List.mem_zipIdx_iff_getElem?.mp indexed, receives⟩

theorem map_fst_recvs (placed : List Placement) :
    (recvs placed).map (·.1) = placed.filter fun placement => placement.call.receives := by
  unfold recvs
  conv_rhs => rw [← List.zipIdx_map_fst 0 placed, List.filter_map]
  rfl

/-- The state after some calls of a group. -/
structure Staged
    (before : NCCLCommunicator)
    (placed : List Placement)
    (state : NCCLCommunicator) : Prop where
  comm_buffers : state.comm_buffers = placed.map (·.buffer)
  comm_buffer_sizes : state.comm_buffer_sizes = placed.map (·.call.bytes)
  recv_buffers : state.recv_buffers = (recvs placed).map (·.1.call.buf)
  recv_buffer_idx : state.recv_buffer_idx = (recvs placed).map (·.2)
  operations : state.operations = placed.map Placement.operation
  live : state.device.live = (placed.map Placement.region : List Region) + before.device.live
  commands : state.device.commands =
    before.device.commands ++ placed.flatMap Placement.commands
  apart : placed.Pairwise fun placement other => placement.region.Apart other.region
  fresh : ∀ placement ∈ placed, ∀ region ∈ before.device.live,
    placement.region.Apart region
  unchanged : ∀ address, (∀ placement ∈ placed, ¬ placement.region.Covers address) →
    state.device.heap address = before.device.heap address
  copied : ∀ placement ∈ placed, placement.call.receives = false →
    state.device.heap.read placement.buffer placement.call.bytes =
      before.device.heap.read placement.call.buf placement.call.bytes

namespace Staged

/-- A group begins without communication buffers. -/
theorem start (before : NCCLCommunicator) : Staged before [] before.start where
  comm_buffers := rfl
  comm_buffer_sizes := rfl
  recv_buffers := rfl
  recv_buffer_idx := rfl
  operations := rfl
  live := by simp [NCCLCommunicator.start]
  commands := by simp [NCCLCommunicator.start]
  apart := .nil
  fresh := by simp
  unchanged := fun _ _ => rfl
  copied := by simp

variable {before state : NCCLCommunicator} {placed : List Placement}

/-- The caller's memory keeps its bytes. -/
theorem owned
    (staged : Staged before placed state)
    {address : Int}
    {region : Region}
    (member : region ∈ before.device.live)
    (covers : region.Covers address) :
    state.device.heap address = before.device.heap address :=
  staged.unchanged address fun placement placedMember placementCovers =>
    staged.fresh placement placedMember region member address placementCovers covers

/-- The next communication buffer meets no region in use. -/
theorem place_apart
    (staged : Staged before placed state)
    (allocator : Allocator)
    (size : Nat) :
    (∀ placement ∈ placed,
      Region.Apart ⟨allocator.place state.device.commands state.device.live size, size⟩
        placement.region) ∧
    ∀ region ∈ before.device.live,
      Region.Apart ⟨allocator.place state.device.commands state.device.live size, size⟩
        region := by
  have fresh := allocator.fresh state.device.commands state.device.live size
  rw [staged.live] at fresh ⊢
  refine ⟨fun placement member => fresh _ ?_, fun region member => fresh _ ?_⟩
  · exact Multiset.mem_add.mpr (.inl (Multiset.mem_coe.mpr (List.mem_map_of_mem member)))
  · exact Multiset.mem_add.mpr (.inr member)

/-- One more communication buffer. -/
theorem concat
    (staged : Staged before placed state)
    {placement : Placement}
    {next : NCCLCommunicator}
    (comm_buffers : next.comm_buffers = state.comm_buffers ++ [placement.buffer])
    (comm_buffer_sizes : next.comm_buffer_sizes =
      state.comm_buffer_sizes ++ [placement.call.bytes])
    (recv_buffers : next.recv_buffers = state.recv_buffers ++
      if placement.call.receives then [placement.call.buf] else [])
    (recv_buffer_idx : next.recv_buffer_idx = state.recv_buffer_idx ++
      if placement.call.receives then [state.comm_buffers.length] else [])
    (operations : next.operations = state.operations ++ [placement.operation])
    (live : next.device.live = placement.region ::ₘ state.device.live)
    (commands : next.device.commands = state.device.commands ++ placement.commands)
    (others : ∀ other ∈ placed, placement.region.Apart other.region)
    (owners : ∀ region ∈ before.device.live, placement.region.Apart region)
    (unchanged : ∀ address, ¬ placement.region.Covers address →
      next.device.heap address = state.device.heap address)
    (copied : placement.call.receives = false →
      next.device.heap.read placement.buffer placement.call.bytes =
        before.device.heap.read placement.call.buf placement.call.bytes) :
    Staged before (placed ++ [placement]) next where
  comm_buffers := by
    rw [comm_buffers, staged.comm_buffers, List.map_append]
    rfl
  comm_buffer_sizes := by
    rw [comm_buffer_sizes, staged.comm_buffer_sizes, List.map_append]
    rfl
  recv_buffers := by
    rw [recv_buffers, staged.recv_buffers, recvs_concat, List.map_append]
    congr 1
    split <;> rfl
  recv_buffer_idx := by
    rw [recv_buffer_idx, staged.recv_buffer_idx, staged.comm_buffers, recvs_concat,
      List.map_append, List.length_map]
    congr 1
    split <;> rfl
  operations := by
    rw [operations, staged.operations, List.map_append]
    rfl
  live := by
    rw [live, staged.live, ← Multiset.cons_add, List.map_append, Multiset.cons_coe]
    congr 1
    exact Multiset.coe_eq_coe.mpr (List.perm_append_singleton _ _).symm
  commands := by
    rw [commands, staged.commands, List.flatMap_append, List.append_assoc]
    simp
  apart := by
    rw [List.pairwise_append]
    refine ⟨staged.apart, List.pairwise_singleton _ _, fun other member last lastMember => ?_⟩
    obtain rfl := List.mem_singleton.mp lastMember
    exact (others other member).symm
  fresh := by
    intro other member region regionMember
    rcases List.mem_append.mp member with earlier | last
    · exact staged.fresh other earlier region regionMember
    · obtain rfl := List.mem_singleton.mp last
      exact owners region regionMember
  unchanged := by
    intro address outside
    rw [unchanged address (outside placement (by simp))]
    exact staged.unchanged address fun other member => outside other (by simp [member])
  copied := by
    intro other member sends
    rcases List.mem_append.mp member with earlier | last
    · rw [← staged.copied other earlier sends]
      apply Heap.read_congr
      intro address covers
      apply unchanged
      intro meets
      exact others other earlier address meets (covers.mono (le_padded other.call.bytes))
    · obtain rfl := List.mem_singleton.mp last
      exact copied sends

/-- The state after one more call. -/
theorem perform
    (staged : Staged before placed state)
    (allocator : Allocator)
    {call : Call}
    (nonneg : 0 ≤ call.count * call.element_size)
    (small : call.count * call.element_size ≤ 2 ^ 57)
    (within : (Region.mk call.buf call.bytes).Within before.device.live) :
    Staged before
      (placed ++ [⟨call, allocator.place state.device.commands state.device.live
        (padded call.bytes)⟩])
      (call.perform allocator state) := by
  obtain ⟨bytes, aligned, _⟩ := sizes_eq nonneg small
  obtain ⟨others, owners⟩ := staged.place_apart allocator (padded call.bytes)
  have readable : state.device.heap.read call.buf call.bytes =
      before.device.heap.read call.buf call.bytes := by
    apply Heap.read_congr
    intro address covers
    obtain ⟨region, member, regionCovers⟩ := within address covers
    exact staged.owned member regionCovers
  cases call with
  | send buf count element_size dest =>
      let buffer := allocator.place state.device.commands state.device.live
        (padded (Call.send buf count element_size dest).bytes)
      have next : (Call.send buf count element_size dest).perform allocator state =
          { state with
            comm_buffers := state.comm_buffers ++ [buffer]
            comm_buffer_sizes := state.comm_buffer_sizes ++
              [(Call.send buf count element_size dest).bytes]
            operations := state.operations ++ [.ncclSend buffer
              (padded (Call.send buf count element_size dest).bytes) dest]
            device := (state.device.allocate allocator
              (padded (Call.send buf count element_size dest).bytes)).2.memcpy buffer buf
                (Call.send buf count element_size dest).bytes } := by
        simp only [Call.count, Call.element_size] at bytes aligned
        simp only [Call.perform, NCCLCommunicator.send, bytes, aligned]
        rfl
      rw [next]
      refine staged.concat rfl rfl (List.append_nil _).symm (List.append_nil _).symm rfl rfl
        ?_ others owners ?_ fun _ => ?_
      · exact List.append_assoc _ _ _
      · intro address outside
        apply Heap.write_of_not_covers
        intro covers
        apply outside
        apply Region.covers_of_write covers
        rw [Heap.length_read]
        exact le_padded (Call.send buf count element_size dest).bytes
      · rw [← readable]
        refine (Heap.read_write _ _ ?_).trans ?_
        · exact (Heap.length_read _ _ _).ge
        · exact List.take_of_length_le (Heap.length_read _ _ _).le
  | recv buf count element_size source =>
      let buffer := allocator.place state.device.commands state.device.live
        (padded (Call.recv buf count element_size source).bytes)
      have next : (Call.recv buf count element_size source).perform allocator state =
          { state with
            recv_buffers := state.recv_buffers ++ [buf]
            recv_buffer_idx := state.recv_buffer_idx ++ [state.comm_buffers.length]
            comm_buffers := state.comm_buffers ++ [buffer]
            comm_buffer_sizes := state.comm_buffer_sizes ++
              [(Call.recv buf count element_size source).bytes]
            operations := state.operations ++ [.ncclRecv buffer
              (padded (Call.recv buf count element_size source).bytes) source]
            device := (state.device.allocate allocator
              (padded (Call.recv buf count element_size source).bytes)).2 } := by
        simp only [Call.count, Call.element_size] at bytes aligned
        simp only [Call.perform, NCCLCommunicator.recv, bytes, aligned]
        rfl
      rw [next]
      exact staged.concat rfl rfl rfl rfl rfl rfl rfl others owners (fun _ _ => rfl)
        fun (sends : true = false) => absurd sends (by decide)

end Staged

/-- After all calls of a round every call has its communication buffer. -/
theorem Round.staged
    (round : Round)
    (allocator : Allocator)
    {before : NCCLCommunicator}
    (owned : before.device.live = round.live) :
    ∃ placed, placed.map Placement.call = round.calls ∧
      Staged before placed (round.calls.foldl (Call.perform allocator) before.start) := by
  have run : ∀ calls, calls <+: round.calls →
      ∃ placed, placed.map Placement.call = calls ∧
        Staged before placed (calls.foldl (Call.perform allocator) before.start) := by
    intro calls
    induction calls using List.reverseRecOn with
    | nil => exact fun _ => ⟨[], rfl, .start before⟩
    | append_singleton earlier call inductionHypothesis =>
        intro isInitial
        obtain ⟨placed, same, staged⟩ :=
          inductionHypothesis ((List.prefix_append _ _).trans isInitial)
        have member : call ∈ round.calls := isInitial.subset (by simp)
        obtain ⟨nonneg, small⟩ := round.bytes_le member
        have within := (round.valid call member).within
        rw [← owned] at within
        have more := staged.perform allocator nonneg small within
        rw [List.foldl_concat]
        refine ⟨_, ?_, more⟩
        rw [List.map_append, same]
        rfl
  exact run round.calls List.prefix_rfl

end DistributedJoin
