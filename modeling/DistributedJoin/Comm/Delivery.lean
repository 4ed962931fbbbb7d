import DistributedJoin.Comm.Exchange

/-!
# What is delivered into a receive buffer

A buffer that is sent as it is and a buffer that is compressed partition by
partition put the same bytes at the same places of the receive buffer, as long
as the number of elements of every partition fits `cudf::size_type`.
-/

namespace DistributedJoin

open Device Spmd

/-- The writes to a buffer among the writes of a list of arrivals. -/
theorem writesTo_append (buffer : Buffer) (first second : Memory) :
    writesTo buffer (first ++ second) =
      writesTo buffer first ++ writesTo buffer second :=
  List.filterMap_append

/-- All transfers into one buffer are writes to it. -/
theorem writesTo_transfers
    {n : Nat}
    (layout : Layout n)
    (include_current_rank : Bool)
    (buffer : Buffer)
    (data : Nat → List Byte)
    (send_offset recv_offset : Nat → List Int)
    (item_size rank : Nat) :
    writesTo buffer (received (layout.transfers include_current_rank buffer data
        send_offset recv_offset item_size rank)) =
      (layout.indices include_current_rank rank).map fun index =>
        ⟨(recv_offset rank).getD index 0 * item_size,
          (transferAt buffer (data (layout.member rank index))
            (send_offset (layout.member rank index)) item_size
            (layout.local_idx rank)).bytes⟩ := by
  unfold received Layout.transfers
  rw [← layout.map_indices include_current_rank rank fun peer index =>
    (landingAt buffer (recv_offset rank) item_size index,
      transferAt buffer (data peer) (send_offset peer) item_size
        (layout.local_idx rank)), List.map_map, writesTo, List.filterMap_map]
  simp [Function.comp_def, landingAt]

/-- Transfers into one buffer write to no other. -/
theorem writesTo_transfers_of_ne
    {n : Nat}
    (layout : Layout n)
    (include_current_rank : Bool)
    {buffer other : Buffer}
    (different : buffer ≠ other)
    (data : Nat → List Byte)
    (send_offset recv_offset : Nat → List Int)
    (item_size rank : Nat) :
    writesTo other (received (layout.transfers include_current_rank buffer data
        send_offset recv_offset item_size rank)) = [] := by
  unfold received Layout.transfers writesTo
  rw [List.map_map, List.filterMap_map, List.filterMap_eq_nil_iff]
  intro peer _
  simp [Function.comp_def, landingAt, different]

namespace GroupPlan

variable (plan : GroupPlan) {n : Nat} (layout : Layout n) (gpu : Gpu)
  (include_current_rank : Bool)

/-- The bytes that a rank is to get from the member with a given index. -/
def piece (rank index : Nat) : List Byte :=
  readRange (plan.send_buffer (layout.member rank index))
    ((plan.send_offsets (layout.member rank index)).getD (layout.local_idx rank) 0 *
      plan.item_size)
    (countAt (plan.send_offsets (layout.member rank index))
      (layout.local_idx rank) * plan.item_size).toNat

/-- The writes that deliver a buffer to a rank. -/
def deliveries (rank : Nat) : List Write :=
  (layout.indices include_current_rank rank).map fun index =>
    ⟨(plan.recv_offsets rank).getD index 0 * plan.item_size,
      plan.piece layout rank index⟩

/-- A buffer that is not compressed is delivered by its receives. -/
theorem writesTo_wire_none
    (uncompressed : plan.compression_method = .none)
    (rank : Nat) :
    writesTo (.plain plan.ptr)
        (received (plan.wire layout gpu include_current_rank rank)) =
      plan.deliveries layout include_current_rank rank := by
  rw [wire, if_pos uncompressed, writesTo_transfers]
  rfl

/-- The number of elements of every partition fits `cudf::size_type`. -/
def Narrow : Prop :=
  ∀ rank, rank < n → ∀ index ∈ layout.indices include_current_rank rank,
    0 ≤ countAt (plan.send_offsets rank) index ∧
      countAt (plan.send_offsets rank) index < 2 ^ 31

/-- The compressed partition of a rank for one member of its group. -/
def block (rank index : Nat) : List Byte :=
  (plan.blocks layout gpu include_current_rank rank).getD index []

theorem blocks_eq (rank : Nat) :
    plan.blocks layout gpu include_current_rank rank =
      (List.range layout.group_size).map
        (plan.block layout gpu include_current_rank rank) := by
  have size : (plan.blocks layout gpu include_current_rank rank).length =
      layout.group_size := by
    simp [blocks, AllToAllCommBuffer.uncompressed]
  apply List.ext_getElem
  · simp [size]
  · intro index indexBound _
    simp only [List.getElem_map, List.getElem_range, block]
    rw [List.getD_eq_getElem _ _ indexBound]

/-- A rank that is left out has an empty partition. -/
theorem block_of_excluded
    {rank index : Nat}
    (indexBound : index < layout.group_size)
    (excluded : index ∉ layout.indices include_current_rank rank) :
    plan.block layout gpu include_current_rank rank index = [] := by
  rw [layout.mem_indices] at excluded
  push Not at excluded
  obtain ⟨included, same⟩ := excluded indexBound
  have flag : include_current_rank = false := by simpa using included
  subst flag
  unfold block blocks AllToAllCommBuffer.uncompressed
  rw [List.map_map, List.getD_eq_getElem _ _ (by simpa using indexBound)]
  simp [same]

/-- A partition that is not left out is compressed unless it is empty. -/
theorem block_of_included
    {rank index : Nat}
    (member : index ∈ layout.indices include_current_rank rank) :
    plan.block layout gpu include_current_rank rank index =
      if toSizeType (countAt (plan.send_offsets rank) index) = 0 then []
      else gpu.codec.compress plan.dtype.id (plan.cascaded_format rank)
        (readRange (plan.send_buffer rank)
          ((plan.send_offsets rank).getD index 0 * plan.item_size)
          (toSizeT (toSizeType (countAt (plan.send_offsets rank) index) *
            plan.item_size))) := by
  obtain ⟨indexBound, included⟩ := layout.mem_indices.mp member
  unfold block blocks AllToAllCommBuffer.uncompressed
  rw [List.map_map, List.getD_eq_getElem _ _ (by simpa using indexBound)]
  have notExcluded : (!include_current_rank &&
      layout.member rank index == rank) = false := by
    rcases included with flag | different
    · simp [flag]
    · simp [different]
  simp only [List.getElem_map, List.getElem_range, Function.comp_apply,
    Layout.get_global_rank_group, notExcluded]
  rfl

/-- The sizes of the compressed partitions. -/
theorem compressed_send_offsets_eq (rank : Nat) :
    plan.compressed_send_offsets layout gpu include_current_rank rank =
      offsetsOf ((List.range layout.group_size).map fun index =>
        ((plan.block layout gpu include_current_rank rank index).length : Int)) := by
  rw [compressed_send_offsets, blocks_eq, List.map_map]
  rfl

theorem countAt_compressed_send_offsets
    (rank : Nat)
    {index : Nat}
    (indexBound : index < layout.group_size) :
    countAt (plan.compressed_send_offsets layout gpu include_current_rank rank) index =
      (plan.block layout gpu include_current_rank rank index).length := by
  rw [compressed_send_offsets_eq, countAt_offsetsOf _ (by simpa using indexBound),
    List.getD_eq_getElem _ _ (by simpa using indexBound)]
  simp

/-- The merged buffer holds the compressed partitions side by side. -/
theorem compressed_send_buffer_eq (rank : Nat) :
    plan.compressed_send_buffer layout gpu include_current_rank rank =
      ((List.range layout.group_size).map
        (plan.block layout gpu include_current_rank rank)).flatten := by
  have tiles := tiles_of_filter (plan.block layout gpu include_current_rank rank)
    layout.group_size
    (fun index => include_current_rank || layout.member rank index != rank)
    (fun index indexBound =>
      getD_offsetsOf_map_range
        (fun index => (plan.block layout gpu include_current_rank rank index).length)
        (Nat.le_of_lt indexBound))
    (fun index indexBound dropped => plan.block_of_excluded layout gpu
      include_current_rank indexBound fun member => by
        have kept := (List.mem_filter.mp member).2
        rw [dropped] at kept
        contradiction)
  have content := tiles.contents_eq gpu.uninitialized
  rw [← content]
  have writes : ((List.range layout.group_size).filter fun index =>
        include_current_rank || layout.member rank index != rank).map (fun index =>
      (⟨(plan.compressed_send_offsets layout gpu include_current_rank rank).getD
          index 0,
        (plan.blocks layout gpu include_current_rank rank).getD index []⟩ : Write)) =
      ((List.range layout.group_size).filter fun index =>
        include_current_rank || layout.member rank index != rank).map fun index =>
      ⟨(offsetsOf ((List.range layout.group_size).map fun index =>
          ((plan.block layout gpu include_current_rank rank index).length : Int))).getD
          index 0,
        plan.block layout gpu include_current_rank rank index⟩ := by
    rw [compressed_send_offsets_eq]
    rfl
  have size : ((plan.compressed_send_offsets layout gpu include_current_rank
      rank).getLastD 0).toNat = ((List.range layout.group_size).map
        (plan.block layout gpu include_current_rank rank)).flatten.length := by
    rw [compressed_send_offsets_eq, getLastD_offsetsOf_map_range, Int.toNat_natCast,
      List.length_flatten, List.map_map]
    rfl
  rw [compressed_send_buffer, merge_compressed_buffers, size]
  exact congrArg (contents gpu.uninitialized · _) writes

/-- A rank receives the compressed partitions that its peers have for it. -/
theorem bytes_of_compressed
    (rank : Nat)
    {index : Nat}
    (indexBound : index < layout.group_size) :
    (transferAt (.compressed plan.ptr)
      (plan.compressed_send_buffer layout gpu include_current_rank rank)
      (plan.compressed_send_offsets layout gpu include_current_rank rank) 1
      index).bytes = plan.block layout gpu include_current_rank rank index := by
  have read := readRange_flatten_map_range
    (plan.block layout gpu include_current_rank rank) indexBound
  have place := getD_offsetsOf_map_range
    (fun index => (plan.block layout gpu include_current_rank rank index).length)
    (Nat.le_of_lt indexBound)
  rw [← compressed_send_offsets_eq] at place
  simp only [transferAt]
  rw [countAt_compressed_send_offsets _ _ _ _ _ indexBound, place,
    compressed_send_buffer_eq]
  simpa using read

/-- The compressed partition that a rank gets from the member with a given
index. -/
def incomingBlock (rank index : Nat) : List Byte :=
  plan.block layout gpu include_current_rank (layout.member rank index)
    (layout.local_idx rank)

theorem compressed_recv_offsets_eq (rank : Nat) :
    plan.compressed_recv_offsets layout gpu include_current_rank rank =
      offsetsOf ((List.range layout.group_size).map fun index =>
        ((plan.incomingBlock layout gpu include_current_rank rank index).length :
          Int)) := by
  unfold compressed_recv_offsets Layout.exchanged Layout.incoming
  congr 1
  apply List.map_congr_left
  intro index _
  exact plan.countAt_compressed_send_offsets layout gpu include_current_rank _
    (layout.local_idx_lt rank)

theorem countAt_compressed_recv_offsets
    (rank : Nat)
    {index : Nat}
    (indexBound : index < layout.group_size) :
    countAt (plan.compressed_recv_offsets layout gpu include_current_rank rank) index =
      (plan.incomingBlock layout gpu include_current_rank rank index).length := by
  rw [compressed_recv_offsets_eq, countAt_offsetsOf _ (by simpa using indexBound),
    List.getD_eq_getElem _ _ (by simpa using indexBound)]
  simp

/-- The receive buffer for compressed data holds the partitions side by
side. -/
theorem tiles_compressed
    (cascaded : plan.compression_method = .cascaded)
    (rank : Nat) :
    Tiles (writesTo (.compressed plan.ptr)
        (received (plan.wire layout gpu include_current_rank rank)))
      ((List.range layout.group_size).map
        (plan.incomingBlock layout gpu include_current_rank rank)) := by
  have notNone : plan.compression_method ≠ .none := by simp [cascaded]
  rw [wire, if_neg notNone, writesTo_transfers]
  have tiles := tiles_of_filter
    (plan.incomingBlock layout gpu include_current_rank rank) layout.group_size
    (fun index => include_current_rank || layout.member rank index != rank)
    (fun index indexBound =>
      getD_offsetsOf_map_range
        (fun index =>
          (plan.incomingBlock layout gpu include_current_rank rank index).length)
        (Nat.le_of_lt indexBound))
    (fun index indexBound dropped => by
      have excluded : layout.local_idx rank ∉
          layout.indices include_current_rank (layout.member rank index) := by
        intro member
        have reverse := layout.local_idx_mem_indices member
        rw [layout.member_member rank _ indexBound, layout.member_local_idx,
          layout.local_idx_member rank indexBound] at reverse
        have kept := (List.mem_filter.mp reverse).2
        rw [dropped] at kept
        contradiction
      exact plan.block_of_excluded layout gpu include_current_rank
        (layout.local_idx_lt rank) excluded)
  rw [← compressed_recv_offsets_eq] at tiles
  refine tiles.of_perm (List.Perm.of_eq ?_)
  congr 1
  apply List.map_congr_left
  intro index member
  rw [plan.bytes_of_compressed layout gpu include_current_rank _
    (layout.local_idx_lt rank)]
  simp [incomingBlock]

/-- What is read from the receive buffer for compressed data. -/
theorem readRange_compressed
    (cascaded : plan.compression_method = .cascaded)
    (rank : Nat)
    {index : Nat}
    (indexBound : index < layout.group_size) :
    readRange
        (contents gpu.uninitialized
          (writesTo (.compressed plan.ptr)
            (received (plan.wire layout gpu include_current_rank rank)))
          ((plan.compressed_recv_offsets layout gpu include_current_rank
            rank).getLastD 0).toNat)
        ((plan.compressed_recv_offsets layout gpu include_current_rank rank).getD
          index 0)
        (countAt (plan.compressed_recv_offsets layout gpu include_current_rank rank)
          index).toNat =
      plan.incomingBlock layout gpu include_current_rank rank index := by
  have tiles := plan.tiles_compressed layout gpu include_current_rank cascaded rank
  have size : ((plan.compressed_recv_offsets layout gpu include_current_rank
      rank).getLastD 0).toNat = ((List.range layout.group_size).map
        (plan.incomingBlock layout gpu include_current_rank rank)).flatten.length := by
    rw [compressed_recv_offsets_eq, getLastD_offsetsOf_map_range, Int.toNat_natCast,
      List.length_flatten, List.map_map]
    rfl
  have place := getD_offsetsOf_map_range
    (fun index =>
      (plan.incomingBlock layout gpu include_current_rank rank index).length)
    (Nat.le_of_lt indexBound)
  rw [← compressed_recv_offsets_eq] at place
  rw [size, tiles.contents_eq, place,
    plan.countAt_compressed_recv_offsets layout gpu include_current_rank rank
      indexBound]
  exact readRange_flatten_map_range _ indexBound

/-- The number of elements that a rank expects from the member with a given
index. -/
def expected (rank index : Nat) : Int := countAt (plan.recv_offsets rank) index

/-- What is decompressed: for every partition that expects elements, the write
of the bytes that the member has for the rank. -/
def decompressed (rank : Nat) : Memory :=
  ((layout.indices include_current_rank rank).filter fun index =>
      plan.expected rank index != 0).map fun index =>
    (.plain plan.ptr,
      ⟨(plan.recv_offsets rank).getD index 0 * plan.item_size,
        plan.piece layout rank index⟩)

end GroupPlan

/-- A loop in which no step fails. -/
theorem mapM_eq_ok
    {α β ε : Type}
    {operation : α → Except ε β}
    {result : α → β}
    (values : List α)
    (succeeds : ∀ value ∈ values, operation value = .ok (result value)) :
    values.mapM operation = .ok (values.map result) := by
  induction values with
  | nil => rfl
  | cons value rest inductionHypothesis =>
      rw [List.mapM_cons, succeeds value (by simp),
        inductionHypothesis fun other member => succeeds other (by simp [member])]
      rfl

namespace GroupPlan

variable (plan : GroupPlan) {n : Nat} (layout : Layout n) (gpu : Gpu)
  (include_current_rank : Bool)

/-- A partition that fits `cudf::size_type` survives compression. -/
theorem decompress_incomingBlock
    (known : plan.dtype.id.compressible = true)
    (narrow : plan.Narrow layout include_current_rank)
    (matching : layout.Matching plan.send_offsets plan.recv_offsets)
    {rank : Nat}
    (rankBound : rank < n)
    {index : Nat}
    (member : index ∈ layout.indices include_current_rank rank)
    (nonempty : plan.expected rank index ≠ 0) :
    gpu.codec.decompress
        (plan.incomingBlock layout gpu include_current_rank rank index) =
      plan.piece layout rank index ∧
    (plan.piece layout rank index).length =
      toSizeT (plan.expected rank index * plan.item_size) := by
  obtain ⟨indexBound, _⟩ := layout.mem_indices.mp member
  have agreed : plan.expected rank index =
      countAt (plan.send_offsets (layout.member rank index)) (layout.local_idx rank) :=
    matching rank rankBound index indexBound
  obtain ⟨nonnegative, bounded⟩ := narrow (layout.member rank index)
    (layout.member_lt rankBound indexBound) (layout.local_idx rank)
    (layout.local_idx_mem_indices member)
  rw [← agreed] at nonnegative bounded
  have fixed : plan.dtype.id ≠ .STRING := by
    intro string
    rw [string] at known
    exact absurd known (by decide)
  obtain ⟨widthPositive, widthBound⟩ := TypeId.size_of_bounds fixed
  have bytesNonnegative : 0 ≤ plan.expected rank index * plan.item_size :=
    Int.mul_nonneg nonnegative (Int.natCast_nonneg _)
  have bytesBound : plan.expected rank index * plan.item_size < 2 ^ 64 := by
    have widthLe : (plan.item_size : Int) ≤ 8 := by exact_mod_cast widthBound
    calc
      plan.expected rank index * plan.item_size ≤ plan.expected rank index * 8 :=
        Int.mul_le_mul_of_nonneg_left widthLe nonnegative
      _ < 2 ^ 64 := by omega
  have bytes : toSizeT (plan.expected rank index * plan.item_size) =
      (plan.expected rank index * plan.item_size).toNat := by
    have exact := toSizeT_eq bytesNonnegative bytesBound
    omega
  have pieceLength : (plan.piece layout rank index).length =
      toSizeT (plan.expected rank index * plan.item_size) := by
    rw [piece, length_readRange, bytes, agreed]
  refine ⟨?_, pieceLength⟩
  have pieceNonempty : plan.piece layout rank index ≠ [] := by
    intro empty
    rw [empty, bytes] at pieceLength
    have positive : 0 < plan.expected rank index * plan.item_size :=
      Int.mul_pos (by omega) (by exact_mod_cast widthPositive)
    simp only [List.length_nil] at pieceLength
    omega
  have sent : plan.incomingBlock layout gpu include_current_rank rank index =
      gpu.codec.compress plan.dtype.id
        (plan.cascaded_format (layout.member rank index))
        (plan.piece layout rank index) := by
    rw [incomingBlock, plan.block_of_included layout gpu include_current_rank
      (layout.local_idx_mem_indices member), ← agreed,
      toSizeType_eq nonnegative bounded, if_neg nonempty, bytes, agreed]
    rfl
  rw [sent, gpu.codec.lossless _ _ _ pieceNonempty]

/-- What `postprocess_all_to_all_comm` hands to the decompressor for one
member: the compressed bytes found in the receive buffer and the number of
elements expected. -/
def arrivedPartition (rank index : Nat) : List Byte × Int :=
  if !include_current_rank && layout.member rank index == rank then ([], 0)
  else
    (readRange
        (contents gpu.uninitialized
          (writesTo (.compressed plan.ptr)
            (received (plan.wire layout gpu include_current_rank rank)))
          ((plan.compressed_recv_offsets layout gpu include_current_rank
            rank).getLastD 0).toNat)
        ((plan.compressed_recv_offsets layout gpu include_current_rank rank).getD
          index 0)
        (countAt (plan.compressed_recv_offsets layout gpu include_current_rank rank)
          index).toNat,
      plan.expected rank index)

theorem arrivedPartition_of_excluded
    {rank index : Nat}
    (indexBound : index < layout.group_size)
    (excluded : index ∉ layout.indices include_current_rank rank) :
    plan.arrivedPartition layout gpu include_current_rank rank index = ([], 0) := by
  rw [layout.mem_indices] at excluded
  push Not at excluded
  obtain ⟨flag, same⟩ := excluded indexBound
  rw [arrivedPartition, if_pos (by simp [flag, same])]

theorem arrivedPartition_of_included
    (cascaded : plan.compression_method = .cascaded)
    {rank index : Nat}
    (member : index ∈ layout.indices include_current_rank rank) :
    plan.arrivedPartition layout gpu include_current_rank rank index =
      (plan.incomingBlock layout gpu include_current_rank rank index,
        plan.expected rank index) := by
  obtain ⟨indexBound, included⟩ := layout.mem_indices.mp member
  have kept : ¬ (!include_current_rank && layout.member rank index == rank) = true := by
    rcases included with flag | different
    · simp [flag]
    · simp [different]
  rw [arrivedPartition, if_neg kept,
    plan.readRange_compressed layout gpu include_current_rank cascaded rank indexBound]

/-- The output of the decompressor for one member: nothing if no elements are
expected from it. -/
def output (rank index : Nat) : Option (List Byte) :=
  if index ∈ layout.indices include_current_rank rank ∧ plan.expected rank index ≠ 0 then
    some (plan.piece layout rank index)
  else none

/-- The decompressor skips the partitions without elements and restores all
others. -/
theorem decompression_functor_eq
    (cascaded : plan.compression_method = .cascaded)
    (known : plan.dtype.id.compressible = true)
    (narrow : plan.Narrow layout include_current_rank)
    (matching : layout.Matching plan.send_offsets plan.recv_offsets)
    {rank : Nat}
    (rankBound : rank < n) :
    decompression_functor gpu.codec plan.dtype
        ((List.range layout.group_size).map
          (plan.arrivedPartition layout gpu include_current_rank rank)) =
      .ok ((List.range layout.group_size).map
        (plan.output layout include_current_rank rank)) := by
  rw [decompression_functor, if_pos known, List.mapM_map]
  apply mapM_eq_ok
  intro index range
  have indexBound : index < layout.group_size := List.mem_range.mp range
  rw [Function.comp_apply]
  by_cases member : index ∈ layout.indices include_current_rank rank
  · rw [plan.arrivedPartition_of_included layout gpu include_current_rank cascaded
      member]
    by_cases empty : plan.expected rank index = 0
    · simp [output, empty]
    · obtain ⟨lossless, exact⟩ := plan.decompress_incomingBlock layout gpu
        include_current_rank known narrow matching rankBound member empty
      simp [output, empty, member, lossless, exact]
  · rw [plan.arrivedPartition_of_excluded layout gpu include_current_rank indexBound
      member]
    simp [output, member]

/-- The outputs are written where the partitions of the members belong. -/
theorem filterMap_output (rank : Nat) :
    ((List.range layout.group_size).filterMap fun local_idx =>
      (((List.range layout.group_size).map
        (plan.output layout include_current_rank rank)).getD local_idx none).map
          fun output => ((Buffer.plain plan.ptr,
            ⟨(plan.recv_offsets rank).getD local_idx 0 * plan.item_size, output⟩) :
              Buffer × Write)) =
      plan.decompressed layout include_current_rank rank := by
  unfold decompressed Layout.indices
  rw [List.filter_filter]
  have partly : ∀ indices : List Nat, (∀ index ∈ indices, index < layout.group_size) →
      (indices.filterMap fun local_idx =>
        (((List.range layout.group_size).map
          (plan.output layout include_current_rank rank)).getD local_idx none).map
            fun output => ((Buffer.plain plan.ptr,
              ⟨(plan.recv_offsets rank).getD local_idx 0 * plan.item_size, output⟩) :
                Buffer × Write)) =
        (indices.filter fun index => plan.expected rank index != 0 &&
          (include_current_rank || layout.member rank index != rank)).map fun index =>
            (.plain plan.ptr,
              ⟨(plan.recv_offsets rank).getD index 0 * plan.item_size,
                plan.piece layout rank index⟩) := by
    intro indices
    induction indices with
    | nil => intro _; rfl
    | cons index rest inductionHypothesis =>
        intro bounds
        have indexBound := bounds index (by simp)
        have member : index ∈ layout.indices include_current_rank rank ↔
            (include_current_rank || layout.member rank index != rank) = true := by
          rw [layout.mem_indices]
          simp [indexBound]
        have found : ((List.range layout.group_size).map
            (plan.output layout include_current_rank rank)).getD index none =
              plan.output layout include_current_rank rank index := by
          rw [List.getD_eq_getElem _ _ (by simpa using indexBound), List.getElem_map,
            List.getElem_range]
        rw [List.filterMap_cons, List.filter_cons, found,
          inductionHypothesis fun other otherMember => bounds other (by simp [otherMember])]
        unfold output
        by_cases kept : plan.expected rank index ≠ 0 ∧
            (include_current_rank || layout.member rank index != rank) = true
        · rw [if_pos ⟨member.mpr kept.2, kept.1⟩, if_pos (by simp [kept.1, kept.2])]
          rfl
        · rw [if_neg fun both => kept ⟨both.2, member.mp both.1⟩, if_neg (by
            rw [Bool.and_eq_true, bne_iff_ne]
            exact kept)]
          rfl
  exact partly _ fun index range => List.mem_range.mp range

/-- Decompressing a buffer runs the decompressor on the partitions that have
arrived. -/
theorem decompress_buffer_eq
    (cascaded : plan.compression_method = .cascaded)
    (group_by_batch : Bool)
    {rank : Nat}
    {memory : Memory}
    (arrived : writesTo (.compressed plan.ptr) memory =
      writesTo (.compressed plan.ptr)
        (received (plan.wire layout gpu include_current_rank rank))) :
    decompress_buffer gpu (layout.group rank) (communicatorOf n group_by_batch rank)
        include_current_rank memory
        (plan.completed layout gpu include_current_rank rank) = (do
      let outputs ← decompression_functor gpu.codec plan.dtype
        ((List.range layout.group_size).map
          (plan.arrivedPartition layout gpu include_current_rank rank))
      pure ((List.range layout.group_size).filterMap fun local_idx =>
        (outputs.getD local_idx none).map fun output =>
          (.plain plan.ptr,
            ⟨(plan.recv_offsets rank).getD local_idx 0 * plan.item_size,
              output⟩))) := by
  have notNone : plan.compression_method ≠ .none := by simp [cascaded]
  have notNoneCompressed : (plan.compressed layout gpu include_current_rank
      rank).compression_method ≠ .none := notNone
  rw [completed, if_neg notNone]
  unfold decompress_buffer
  rw [if_neg notNoneCompressed]
  simp only [compressed, buffer, arrived]
  rfl

/-- A compressed buffer whose partitions fit `cudf::size_type` is decompressed
without an error, to the bytes that the members have for the rank. -/
theorem decompress_buffer_compressed
    (cascaded : plan.compression_method = .cascaded)
    (known : plan.dtype.id.compressible = true)
    (narrow : plan.Narrow layout include_current_rank)
    (matching : layout.Matching plan.send_offsets plan.recv_offsets)
    (group_by_batch : Bool)
    {rank : Nat}
    (rankBound : rank < n)
    {memory : Memory}
    (arrived : writesTo (.compressed plan.ptr) memory =
      writesTo (.compressed plan.ptr)
        (received (plan.wire layout gpu include_current_rank rank))) :
    decompress_buffer gpu (layout.group rank) (communicatorOf n group_by_batch rank)
        include_current_rank memory
        (plan.completed layout gpu include_current_rank rank) =
      .ok (plan.decompressed layout include_current_rank rank) := by
  rw [plan.decompress_buffer_eq layout gpu include_current_rank cascaded
      group_by_batch arrived,
    plan.decompression_functor_eq layout gpu include_current_rank cascaded known
      narrow matching rankBound]
  exact congrArg Except.ok (plan.filterMap_output layout include_current_rank rank)

/-- Up to empty writes, decompression delivers what the receives of the same
buffer without compression deliver. -/
theorem writesTo_decompressed
    (matching : layout.Matching plan.send_offsets plan.recv_offsets)
    {rank : Nat}
    (rankBound : rank < n) :
    (writesTo (.plain plan.ptr)
        (plan.decompressed layout include_current_rank rank)).filter
          (fun write => !write.bytes.isEmpty) =
      (plan.deliveries layout include_current_rank rank).filter
        fun write => !write.bytes.isEmpty := by
  have all : writesTo (.plain plan.ptr)
      (plan.decompressed layout include_current_rank rank) =
      ((layout.indices include_current_rank rank).filter fun index =>
        plan.expected rank index != 0).map fun index =>
          ⟨(plan.recv_offsets rank).getD index 0 * plan.item_size,
            plan.piece layout rank index⟩ := by
    unfold writesTo decompressed
    rw [List.filterMap_map]
    simp
  rw [all, deliveries, List.filter_map, List.filter_map, List.filter_filter]
  congr 1
  apply List.filter_congr
  intro index member
  obtain ⟨indexBound, _⟩ := layout.mem_indices.mp member
  have agreed : plan.expected rank index =
      countAt (plan.send_offsets (layout.member rank index)) (layout.local_idx rank) :=
    matching rank rankBound index indexBound
  simp only [Function.comp_apply]
  by_cases empty : plan.expected rank index = 0
  · have nothing : plan.piece layout rank index = [] := by
      rw [piece, ← agreed, empty]
      simp
    simp [empty, nothing]
  · simp [empty]

end GroupPlan

end DistributedJoin
