import DistributedJoin.Comm.AllToAll

/-!
# What an all-to-all communication does

All ranks run `all_to_all_comm` on their own plans. Nothing is assumed about
the buffers or the offsets: the receives of a rank are matched with the sends
that its peers have planned for it, in both ways of grouping messages.
-/

namespace DistributedJoin

open Device Spmd

/-- The communicators of a system of `n` ranks. -/
def communicatorOf (n : Nat) (group_by_batch : Bool) (rank : Nat) : Communicator where
  mpi_rank := rank
  mpi_size := n
  group_by_batch := group_by_batch

/-- No message is waited for, other than those of an open group. -/
structure Ready (group_by_batch : Bool) (arrivals : Arrivals ranks) : Prop where
  sizes : arrivals .mpi = fun _ => []
  transfers : group_by_batch = false → arrivals .communicator = fun _ => []

theorem Ready.none (group_by_batch : Bool) :
    Ready group_by_batch (Arrivals.none ranks) where
  sizes := rfl
  transfers := fun _ => rfl

/-- What has arrived but has not been waited for within a group. -/
def pending
    (group_by_batch : Bool)
    (arrivals : Nat → List (Landing × Transfer))
    (rank : Nat) : List (Landing × Transfer) :=
  if group_by_batch then arrivals rank else []

/-- What has been waited for within a group. -/
def collected
    (group_by_batch : Bool)
    (arrivals : Nat → List (Landing × Transfer))
    (rank : Nat) : List (Landing × Transfer) :=
  if group_by_batch then [] else arrivals rank

theorem Ready.deliver
    {group_by_batch : Bool}
    {before : Arrivals ranks}
    (ready : Ready group_by_batch before)
    (arrivals : Nat → List (Landing × Transfer)) :
    Ready group_by_batch
      (before.deliver .communicator (pending group_by_batch arrivals)) where
  sizes := by
    rw [Arrivals.deliver_of_ne before (by decide)]
    exact ready.sizes
  transfers := by
    intro ungrouped
    have nothing : pending group_by_batch arrivals = fun _ => [] := by
      funext rank
      simp [pending, ungrouped]
    rw [nothing, Arrivals.deliver_nil]
    exact ready.transfers ungrouped

/-- The events of a group of transfers, which the communicator opens and closes
unless it groups by batch. -/
def groupEvents
    (group_by_batch : Bool)
    (events : List (Event ranks)) : List (Event ranks) :=
  if group_by_batch then events
  else .noted .start :: events ++ [.waited .communicator]

namespace Layout

variable {n : Nat} (layout : Layout n) (include_current_rank : Bool)

/-- The sends and receives of one buffer. -/
def transferEvents
    (buffer : Buffer)
    (data : Nat → List Byte)
    (send_offset recv_offset : Nat → List Int)
    (item_size : Nat)
    (rank : Nat) : List (Event ranks) :=
  ((layout.peers include_current_rank rank).map fun peer =>
      .sent .communicator peer (transferAt buffer (data rank) (send_offset rank)
        item_size (layout.local_idx peer))) ++
    (layout.peers include_current_rank rank).map fun peer =>
      .posted .communicator peer (landingAt buffer (recv_offset rank) item_size
        (layout.local_idx peer))

/-- What a rank receives of one buffer: in the room for a peer, what the peer
sends to it. -/
def transfers
    (buffer : Buffer)
    (data : Nat → List Byte)
    (send_offset recv_offset : Nat → List Int)
    (item_size : Nat)
    (rank : Nat) : List (Landing × Transfer) :=
  (layout.peers include_current_rank rank).map fun peer =>
    (landingAt buffer (recv_offset rank) item_size (layout.local_idx peer),
      transferAt buffer (data peer) (send_offset peer) item_size
        (layout.local_idx rank))

end Layout

section Phases

variable {n : Nat} {eager : Eagerness ranks} {before : Arrivals ranks}

/-- The sends and receives of one buffer on all ranks. -/
theorem phase_by_offset
    (layout : Layout n)
    (group_by_batch include_current_rank : Bool)
    (buffer : Buffer)
    (data : Nat → List Byte)
    (send_offset recv_offset : Nat → List Int)
    (item_size : Nat) :
    Phase n eager before
      (fun rank => do
        send_data_by_offset buffer (data rank) (send_offset rank) item_size
          (layout.group rank) (communicatorOf n group_by_batch rank)
          include_current_rank
        recv_data_by_offset buffer (recv_offset rank) item_size
          (layout.group rank) (communicatorOf n group_by_batch rank)
          include_current_rank)
      (before.deliver .communicator
        (layout.transfers include_current_rank buffer data send_offset
          recv_offset item_size))
      (.ok fun _ => ())
      (layout.transferEvents include_current_rank buffer data send_offset
        recv_offset item_size) := by
  let message : Nat → Nat → Transfer := fun rank peer =>
    transferAt buffer (data rank) (send_offset rank) item_size
      (layout.local_idx peer)
  let room : Nat → Nat → Landing := fun rank peer =>
    landingAt buffer (recv_offset rank) item_size (layout.local_idx peer)
  have exchange : Phase n eager before _ _ _ _ :=
    Phase.exchange (I := ranks) (layout.neighbours include_current_rank)
      .communicator message room
  refine exchange.congr fun rank _ => ?_
  have sends := layout.map_indices include_current_rank rank fun peer index =>
    (peer, transferAt buffer (data rank) (send_offset rank) item_size index)
  have posts := layout.map_indices include_current_rank rank fun peer index =>
    (peer, landingAt buffer (recv_offset rank) item_size index)
  unfold send_data_by_offset recv_data_by_offset
  rw [← sends, ← posts]
  rfl

/-- The communication of one buffer on all ranks, in a group of its own or as
part of a larger group. -/
theorem phase_exchange_by_offset
    (layout : Layout n)
    {group_by_batch : Bool}
    (include_current_rank : Bool)
    (buffer : Buffer)
    (data : Nat → List Byte)
    (send_offset recv_offset : Nat → List Int)
    (item_size : Nat)
    (ready : Ready group_by_batch before) :
    Phase n eager before
      (fun rank => exchange_by_offset buffer (data rank) (send_offset rank)
        (recv_offset rank) item_size (layout.group rank)
        (communicatorOf n group_by_batch rank) include_current_rank)
      (before.deliver .communicator (pending group_by_batch
        (layout.transfers include_current_rank buffer data send_offset
          recv_offset item_size)))
      (.ok (collected group_by_batch
        (layout.transfers include_current_rank buffer data send_offset
          recv_offset item_size)))
      (fun rank => groupEvents group_by_batch
        (layout.transferEvents include_current_rank buffer data
          send_offset recv_offset item_size rank)) := by
  have exchange : Phase n eager before _ _ _ _ :=
    phase_by_offset layout group_by_batch include_current_rank buffer data
      send_offset recv_offset item_size
  cases group_by_batch with
  | true =>
      have returned := exchange.map fun _ _ => ([] : List (Landing × Transfer))
      refine returned.congr fun rank _ => ?_
      simp only [exchange_by_offset, communicatorOf, bind_assoc]
      rfl
  | false =>
      have nothing : pending false (layout.transfers include_current_rank buffer
          data send_offset recv_offset item_size) = fun _ => [] := rfl
      have quiet := ready.transfers rfl
      have opened : Phase n eager before (fun _ => Communicator.start) before
          (.ok fun _ => ()) _ :=
        Phase.observe (I := ranks) fun _ => .start
      have closed : Phase n eager
          (before.deliver .communicator (layout.transfers include_current_rank
            buffer data send_offset recv_offset item_size))
          (fun _ => Communicator.stop) _ _ _ := Phase.await (I := ranks) .communicator
      rw [Arrivals.settle_deliver quiet, Arrivals.deliver_quiet quiet] at closed
      rw [nothing, Arrivals.deliver_nil]
      have composed : Phase n eager before
          (fun rank => Communicator.start >>= fun _ =>
            (send_data_by_offset buffer (data rank) (send_offset rank) item_size
                (layout.group rank) (communicatorOf n false rank)
                include_current_rank >>= fun _ =>
              recv_data_by_offset buffer (recv_offset rank) item_size
                (layout.group rank) (communicatorOf n false rank)
                include_current_rank) >>= fun _ => Communicator.stop)
          _ _ _ :=
        opened.bind (exchange.bind closed)
      refine composed.congr fun rank _ => ?_
      simp only [exchange_by_offset, communicatorOf, bind_assoc]
      rfl

end Phases

/-- The plans of all ranks for one buffer: the same buffer of a column, with
elements of the same type, sent in the same way. -/
structure GroupPlan where
  ptr : DevicePtr
  dtype : DataType
  compression_method : CompressionMethod
  cascaded_format : Nat → CascadedFormat
  send_buffer : Nat → List Byte
  send_offsets : Nat → List Int
  recv_offsets : Nat → List Int

namespace GroupPlan

variable (plan : GroupPlan)

/-- The plan of one rank. -/
def buffer (rank : Nat) : AllToAllCommBuffer where
  ptr := plan.ptr
  send_buffer := plan.send_buffer rank
  send_offsets := plan.send_offsets rank
  recv_offsets := plan.recv_offsets rank
  dtype := plan.dtype
  compression_method := plan.compression_method
  cascaded_format := plan.cascaded_format rank

/-- The size of the elements of the buffer. -/
abbrev item_size : Nat := plan.dtype.id.size_of

/-- The buffer can be sent as planned: as it is, or compressed by a codec that
knows its type. -/
def Supported : Prop :=
  plan.compression_method = .none ∨
    plan.compression_method = .cascaded ∧ plan.dtype.id.compressible = true

instance : Decidable plan.Supported := inferInstanceAs (Decidable (_ ∨ _))

variable {n : Nat} (layout : Layout n) (gpu : Gpu) (include_current_rank : Bool)

/-- The compressed partitions of a rank's buffer. -/
def blocks (rank : Nat) : List (List Byte) :=
  ((plan.buffer rank).uncompressed (layout.group rank) rank include_current_rank).map
    fun partition =>
      if partition.2 = 0 then []
      else gpu.codec.compress plan.dtype.id (plan.cascaded_format rank)
        (readRange (plan.send_buffer rank) partition.1
          (toSizeT (partition.2 * plan.dtype.id.size_of)))

/-- Where the compressed partitions of a rank's buffer start. -/
def compressed_send_offsets (rank : Nat) : List Int :=
  offsetsOf ((plan.blocks layout gpu include_current_rank rank).map
    fun block => (block.length : Int))

/-- The compressed partitions of a rank in one buffer. -/
def compressed_send_buffer (rank : Nat) : List Byte :=
  merge_compressed_buffers gpu (layout.group rank) rank include_current_rank
    (plan.blocks layout gpu include_current_rank rank)
    (plan.compressed_send_offsets layout gpu include_current_rank rank)

/-- Where a rank receives the compressed partitions of the other ranks. -/
def compressed_recv_offsets (rank : Nat) : List Int :=
  layout.exchanged (plan.compressed_send_offsets layout gpu include_current_rank) rank

/-- The plan of a rank with its compressed buffer. -/
def compressed (rank : Nat) : AllToAllCommBuffer :=
  { plan.buffer rank with
    compressed_send_buffer :=
      plan.compressed_send_buffer layout gpu include_current_rank rank
    compressed_send_offsets :=
      plan.compressed_send_offsets layout gpu include_current_rank rank
    compressed_recv_offsets :=
      plan.compressed_recv_offsets layout gpu include_current_rank rank }

/-- The plan of a rank after the communication. -/
def completed (rank : Nat) : AllToAllCommBuffer :=
  if plan.compression_method = .none then plan.buffer rank
  else plan.compressed layout gpu include_current_rank rank

/-- What a rank receives. -/
def wire (rank : Nat) : List (Landing × Transfer) :=
  if plan.compression_method = .none then
    layout.transfers include_current_rank (.plain plan.ptr) plan.send_buffer
      plan.send_offsets plan.recv_offsets plan.item_size rank
  else
    layout.transfers include_current_rank (.compressed plan.ptr)
      (plan.compressed_send_buffer layout gpu include_current_rank)
      (plan.compressed_send_offsets layout gpu include_current_rank)
      (plan.compressed_recv_offsets layout gpu include_current_rank) 1 rank

/-- What a rank does to send and receive the buffer. -/
def events (group_by_batch : Bool) (rank : Nat) : List (Event ranks) :=
  if plan.compression_method = .none then
    groupEvents group_by_batch
      (layout.transferEvents include_current_rank (.plain plan.ptr)
        plan.send_buffer plan.send_offsets plan.recv_offsets plan.item_size rank)
  else
    layout.sizesEvents (plan.compressed_send_offsets layout gpu include_current_rank)
        rank ++
      groupEvents group_by_batch
        (layout.transferEvents include_current_rank (.compressed plan.ptr)
          (plan.compressed_send_buffer layout gpu include_current_rank)
          (plan.compressed_send_offsets layout gpu include_current_rank)
          (plan.compressed_recv_offsets layout gpu include_current_rank) 1 rank)

end GroupPlan

section Phases

variable {n : Nat} {eager : Eagerness ranks} {before : Arrivals ranks}

/-- The communication of one buffer that can be sent as planned. -/
theorem phase_communicate_buffer
    (plan : GroupPlan)
    (layout : Layout n)
    (gpu : Gpu)
    {group_by_batch : Bool}
    (include_current_rank : Bool)
    (supported : plan.Supported)
    (ready : Ready group_by_batch before) :
    Phase n eager before
      (fun rank => communicate_buffer gpu (layout.group rank)
        (communicatorOf n group_by_batch rank) include_current_rank
        (plan.buffer rank))
      (before.deliver .communicator (pending group_by_batch
        (plan.wire layout gpu include_current_rank)))
      (.ok fun rank =>
        (plan.completed layout gpu include_current_rank rank,
          collected group_by_batch (plan.wire layout gpu include_current_rank) rank))
      (plan.events layout gpu include_current_rank group_by_batch) := by
  rcases supported with uncompressed | ⟨compressed, known⟩
  · have wires : plan.wire layout gpu include_current_rank =
        layout.transfers include_current_rank (.plain plan.ptr) plan.send_buffer
          plan.send_offsets plan.recv_offsets plan.item_size := by
      funext rank
      rw [GroupPlan.wire, if_pos uncompressed]
    have log : plan.events layout gpu include_current_rank group_by_batch =
        fun rank => groupEvents group_by_batch
          (layout.transferEvents include_current_rank (.plain plan.ptr)
            plan.send_buffer plan.send_offsets plan.recv_offsets plan.item_size
            rank) := by
      funext rank
      rw [GroupPlan.events, if_pos uncompressed]
    have exchange : Phase n eager before _ _ _ _ :=
      phase_exchange_by_offset layout include_current_rank (.plain plan.ptr)
        plan.send_buffer plan.send_offsets plan.recv_offsets plan.item_size ready
    rw [wires, log]
    refine ((exchange.map fun rank arrivals =>
      (plan.buffer rank, arrivals)).congr fun rank _ => ?_).congr_result
        fun rank _ => ?_
    · simp only [communicate_buffer, GroupPlan.buffer, uncompressed]
      rfl
    · rw [GroupPlan.completed, if_pos uncompressed]
  · have notNone : plan.compression_method ≠ .none := by simp [compressed]
    have wires : plan.wire layout gpu include_current_rank =
        layout.transfers include_current_rank (.compressed plan.ptr)
          (plan.compressed_send_buffer layout gpu include_current_rank)
          (plan.compressed_send_offsets layout gpu include_current_rank)
          (plan.compressed_recv_offsets layout gpu include_current_rank) 1 := by
      funext rank
      rw [GroupPlan.wire, if_neg notNone]
    have log : plan.events layout gpu include_current_rank group_by_batch =
        fun rank => layout.sizesEvents
            (plan.compressed_send_offsets layout gpu include_current_rank) rank ++
          groupEvents group_by_batch
            (layout.transferEvents include_current_rank (.compressed plan.ptr)
              (plan.compressed_send_buffer layout gpu include_current_rank)
              (plan.compressed_send_offsets layout gpu include_current_rank)
              (plan.compressed_recv_offsets layout gpu include_current_rank) 1
              rank) := by
      funext rank
      rw [GroupPlan.events, if_neg notNone]
    have sizes : Phase n eager before _ _ _ _ := phase_communicate_sizes layout
      (plan.compressed_send_offsets layout gpu include_current_rank) ready.sizes
    have exchange : Phase n eager before _ _ _ _ :=
      phase_exchange_by_offset layout include_current_rank (.compressed plan.ptr)
        (plan.compressed_send_buffer layout gpu include_current_rank)
        (plan.compressed_send_offsets layout gpu include_current_rank)
        (plan.compressed_recv_offsets layout gpu include_current_rank) 1 ready
    have composed : Phase n eager before
        (fun rank => communicate_sizes
            (plan.compressed_send_offsets layout gpu include_current_rank rank)
            (layout.group rank) >>= fun compressed_recv_offsets =>
          exchange_by_offset (.compressed plan.ptr)
              (plan.compressed_send_buffer layout gpu include_current_rank rank)
              (plan.compressed_send_offsets layout gpu include_current_rank rank)
              compressed_recv_offsets 1 (layout.group rank)
              (communicatorOf n group_by_batch rank) include_current_rank >>=
            fun arrivals => Process.pure
              ({ plan.buffer rank with
                compressed_send_buffer :=
                  plan.compressed_send_buffer layout gpu include_current_rank rank
                compressed_send_offsets :=
                  plan.compressed_send_offsets layout gpu include_current_rank rank
                compressed_recv_offsets := compressed_recv_offsets }, arrivals))
        _ _ _ :=
      sizes.bind (exchange.map fun rank arrivals =>
        (plan.compressed layout gpu include_current_rank rank, arrivals))
    rw [wires, log]
    refine (composed.congr fun rank _ => ?_).congr_result fun rank _ => ?_
    · simp only [communicate_buffer, GroupPlan.buffer, compressed,
        compression_functor, known, if_true]
      rfl
    · rw [GroupPlan.completed, if_neg notNone]

/-- A buffer that cannot be sent as planned stops all ranks before anything is
sent. -/
theorem phase_communicate_unsupported
    (eager : Eagerness ranks)
    (plan : GroupPlan)
    (layout : Layout n)
    (gpu : Gpu)
    (group_by_batch include_current_rank : Bool)
    (unsupported : ¬ plan.Supported) :
    ∃ reason, ∀ before, Phase n eager before
      (fun rank => communicate_buffer gpu (layout.group rank)
        (communicatorOf n group_by_batch rank) include_current_rank
        (plan.buffer rank))
      before (.error reason) (fun _ => []) := by
  unfold GroupPlan.Supported at unsupported
  cases method : plan.compression_method with
  | none => simp [method] at unsupported
  | lz4 =>
      refine ⟨fun _ => "buffer.compression_method == CompressionMethod::cascaded",
        fun before => (Phase.fail _).congr fun rank _ => ?_⟩
      simp only [communicate_buffer, GroupPlan.buffer, method]
  | cascaded =>
      have unknown : plan.dtype.id.compressible = false := by
        simpa [method] using unsupported
      refine ⟨fun _ => "Unsupported type for cascaded compressor",
        fun before => (Phase.fail _).congr fun rank _ => ?_⟩
      simp [communicate_buffer, GroupPlan.buffer, method, compression_functor,
        unknown]

/-- The communication of all buffers. -/
theorem phase_all_to_all_comm
    (plans : List GroupPlan)
    (layout : Layout n)
    (gpu : Gpu)
    {group_by_batch : Bool}
    (include_current_rank : Bool)
    (supported : ∀ plan ∈ plans, plan.Supported)
    (ready : Ready group_by_batch before) :
    Phase n eager before
      (fun rank => all_to_all_comm gpu (plans.map (·.buffer rank))
        (layout.group rank) (communicatorOf n group_by_batch rank)
        include_current_rank)
      (before.deliver .communicator (pending group_by_batch fun rank =>
        plans.flatMap fun plan => plan.wire layout gpu include_current_rank rank))
      (.ok fun rank =>
        (plans.map fun plan => plan.completed layout gpu include_current_rank rank,
          collected group_by_batch (fun rank => plans.flatMap fun plan =>
            plan.wire layout gpu include_current_rank rank) rank))
      (fun rank => plans.flatMap fun plan =>
        plan.events layout gpu include_current_rank group_by_batch rank) := by
  have loop : Phase n eager before _ _ _ _ :=
    Phase.mapM_deliver (Ready group_by_batch)
      (fun arrivals plan holds => holds.deliver
        (plan.wire layout gpu include_current_rank)) plans
      (fun plan member arrivals holds =>
        phase_communicate_buffer plan layout gpu include_current_rank
          (supported plan member) holds) ready
  have gathered := loop.map fun _ results =>
    (results.map (·.1), results.flatMap (·.2))
  have left : (fun rank => plans.flatMap fun plan =>
      pending group_by_batch (plan.wire layout gpu include_current_rank) rank) =
      pending group_by_batch fun rank => plans.flatMap fun plan =>
        plan.wire layout gpu include_current_rank rank := by
    funext rank
    cases group_by_batch <;> simp [pending]
  rw [left] at gathered
  refine (gathered.congr fun rank _ => ?_).congr_result fun rank _ => ?_
  · simp only [all_to_all_comm, List.mapM_map]
    rfl
  · cases group_by_batch <;> simp [collected, List.flatMap_map]

end Phases

section Duality

variable {n : Nat} (layout : Layout n) (include_current_rank : Bool)

/-- Of distinct keys, a test for one key keeps at most that key. -/
theorem filterMap_key
    {κ ν : Type}
    [DecidableEq κ]
    {keys : List κ}
    (distinct : keys.Nodup)
    (value : κ → ν)
    (key : κ) :
    keys.filterMap (fun other => if other = key then some (value other) else none) =
      if key ∈ keys then [value key] else [] := by
  induction keys with
  | nil => rfl
  | cons head tail inductionHypothesis =>
      rw [List.nodup_cons] at distinct
      rw [List.filterMap_cons, inductionHypothesis distinct.2]
      by_cases same : head = key
      · subst same
        simp [distinct.1]
      · simp [same, Ne.symm same]

/-- What a rank sends to a peer with one buffer. -/
theorem sendTape_transferEvents
    (buffer : Buffer)
    (data : Nat → List Byte)
    (send_offset recv_offset : Nat → List Int)
    (item_size : Nat)
    {rank : Nat}
    (rankBound : rank < n)
    (peer : Nat) :
    sendTape peer (layout.transferEvents include_current_rank buffer data
        send_offset recv_offset item_size rank) =
      if peer ∈ layout.peers include_current_rank rank then
        [.item (countAt (send_offset rank) (layout.local_idx peer)) item_size]
      else [] := by
  have distinct := (layout.neighbours include_current_rank).distinct rank rankBound
  rw [← filterMap_key distinct (fun other =>
    Token.item (countAt (send_offset rank) (layout.local_idx other)) item_size) peer]
  unfold sendTape Layout.transferEvents
  rw [List.filterMap_append, List.filterMap_map, List.filterMap_map]
  have received : (layout.peers include_current_rank rank).filterMap
      (sendToken peer ∘ fun other => .posted .communicator other
        (landingAt buffer (recv_offset rank) item_size (layout.local_idx other))) =
      [] := by
    rw [List.filterMap_eq_nil_iff]
    intro _ _
    rfl
  rw [received, List.append_nil]
  rfl

/-- What a rank expects from a peer with one buffer. -/
theorem recvTape_transferEvents
    (buffer : Buffer)
    (data : Nat → List Byte)
    (send_offset recv_offset : Nat → List Int)
    (item_size : Nat)
    {rank : Nat}
    (rankBound : rank < n)
    (peer : Nat) :
    recvTape peer (layout.transferEvents include_current_rank buffer data
        send_offset recv_offset item_size rank) =
      if peer ∈ layout.peers include_current_rank rank then
        [.item (countAt (recv_offset rank) (layout.local_idx peer)) item_size]
      else [] := by
  have distinct := (layout.neighbours include_current_rank).distinct rank rankBound
  rw [← filterMap_key distinct (fun other =>
    Token.item (countAt (recv_offset rank) (layout.local_idx other)) item_size) peer]
  unfold recvTape Layout.transferEvents
  rw [List.filterMap_append, List.filterMap_map, List.filterMap_map]
  have sent : (layout.peers include_current_rank rank).filterMap
      (recvToken peer ∘ fun other => .sent .communicator other
        (transferAt buffer (data rank) (send_offset rank) item_size
          (layout.local_idx other))) = [] := by
    rw [List.filterMap_eq_nil_iff]
    intro _ _
    rfl
  rw [sent, List.nil_append]
  rfl

/-- The offsets that ranks receive by fit the offsets that their peers send
by. -/
def Layout.Matching (send_offset recv_offset : Nat → List Int) : Prop :=
  ∀ rank, rank < n → ∀ index, index < layout.group_size →
    countAt (recv_offset rank) index =
      countAt (send_offset (layout.member rank index)) (layout.local_idx rank)

theorem Layout.matching_exchanged (send_offset : Nat → List Int) :
    layout.Matching send_offset (layout.exchanged send_offset) :=
  fun rank _ _ indexBound => layout.countAt_exchanged send_offset rank indexBound

/-- Seen from a peer, the offsets match as well. -/
theorem Layout.Matching.of_peer
    {layout : Layout n}
    {include_current_rank : Bool}
    {send_offset recv_offset : Nat → List Int}
    (matching : layout.Matching send_offset recv_offset)
    {rank peer : Nat}
    (rankBound : rank < n)
    (adjacent : peer ∈ layout.peers include_current_rank rank) :
    countAt (recv_offset rank) (layout.local_idx peer) =
      countAt (send_offset peer) (layout.local_idx rank) := by
  obtain ⟨⟨index, indexBound, rfl⟩, _⟩ := layout.mem_peers.mp adjacent
  rw [layout.local_idx_member rank indexBound]
  exact matching rank rankBound index indexBound

/-- When the offsets match, sends and receives of a buffer are dual. -/
theorem dual_groupEvents
    (group_by_batch : Bool)
    (buffer : Buffer)
    (data : Nat → List Byte)
    {send_offset recv_offset : Nat → List Int}
    (item_size : Nat)
    (matching : layout.Matching send_offset recv_offset) :
    Dual n group_by_batch fun rank => groupEvents group_by_batch
      (layout.transferEvents include_current_rank buffer data send_offset
        recv_offset item_size rank) := by
  have symmetric := (layout.neighbours include_current_rank).symmetric
  have inner : ∀ source dest, source < n → dest < n →
      sendTape dest (layout.transferEvents include_current_rank buffer data
        send_offset recv_offset item_size source) =
      recvTape source (layout.transferEvents include_current_rank buffer data
        send_offset recv_offset item_size dest) := by
    intro source dest sourceBound destBound
    rw [sendTape_transferEvents layout include_current_rank buffer data send_offset
        recv_offset item_size sourceBound dest,
      recvTape_transferEvents layout include_current_rank buffer data send_offset
        recv_offset item_size destBound source]
    by_cases adjacent : source ∈ layout.peers include_current_rank dest
    · rw [if_pos adjacent, if_pos ((symmetric dest source destBound
        sourceBound).mp adjacent), matching.of_peer destBound adjacent]
    · rw [if_neg adjacent, if_neg fun reverse => adjacent
        ((symmetric dest source destBound sourceBound).mpr reverse)]
  cases group_by_batch with
  | true => exact ⟨inner, fun grouped => by contradiction⟩
  | false =>
      have opening : ∀ peer events,
          sendTape peer (groupEvents false events) =
            .opened :: sendTape peer events ++ [.closed] := by
        intro peer events
        simp [groupEvents, sendTape, sendToken]
      refine ⟨fun source dest sourceBound destBound => ?_,
        fun _ source dest sourceBound destBound => ?_⟩
      · have opening' : ∀ peer events,
            recvTape peer (groupEvents false events) =
              .opened :: recvTape peer events ++ [.closed] := by
          intro peer events
          simp [groupEvents, recvTape, recvToken]
        rw [opening, opening', inner source dest sourceBound destBound]
      · rw [opening, sendTape_transferEvents layout include_current_rank buffer data
          send_offset recv_offset item_size sourceBound dest]
        split
        · exact ⟨[[(_, item_size)]], rfl, by simp⟩
        · exact ⟨[[]], rfl, by simp⟩

/-- Exchanging sizes involves no transfers. -/
theorem silent_sizesEvents
    {send_offset : Nat → List Int}
    {rank : Nat}
    {event : Event ranks}
    (member : event ∈ layout.sizesEvents send_offset rank)
    (peer : Nat) :
    sendToken peer event = none ∧ recvToken peer event = none := by
  simp only [Layout.sizesEvents, List.mem_append, List.mem_map,
    List.mem_singleton] at member
  rcases member with (⟨_, _, rfl⟩ | ⟨_, _, rfl⟩) | rfl <;> exact ⟨rfl, rfl⟩

theorem dual_sizesEvents
    (group_by_batch : Bool)
    (send_offset : Nat → List Int) :
    Dual n group_by_batch (layout.sizesEvents send_offset) :=
  .of_silent fun _ _ _ member => silent_sizesEvents layout member

/-- Sending one buffer with matching offsets is dual, compressed or not. -/
theorem GroupPlan.dual_events
    (plan : GroupPlan)
    (gpu : Gpu)
    (group_by_batch : Bool)
    (matching : layout.Matching plan.send_offsets plan.recv_offsets) :
    Dual n group_by_batch
      (plan.events layout gpu include_current_rank group_by_batch) := by
  unfold GroupPlan.events
  split
  · exact dual_groupEvents layout include_current_rank group_by_batch _ _ _ matching
  · exact (dual_sizesEvents layout group_by_batch _).append
      (dual_groupEvents layout include_current_rank group_by_batch _ _ _
        (layout.matching_exchanged _))

end Duality

end DistributedJoin
