import DistributedJoin.Comm.Launch
import Mathlib.Tactic.IntervalCases

/-!
# When compression is invisible

Compressed and uncompressed communication of the same plans leave the same
bytes in the receive buffers. This holds exactly when the number of elements of
every compressed partition fits `cudf::size_type`: the sender narrows its
counts to that type, while the receiver works with 64-bit counts.
-/

namespace DistributedJoin

open Device Spmd

/-- Plans as a caller of `all_to_all_comm` makes them: the partitions lie inside
the buffers they are sent from, and buffers have addressable sizes. -/
structure BufferPlans {n : Nat} (layout : Layout n) where
  plans : List GroupPlan
  wellPlanned : WellPlanned layout plans
  /-- Offsets do not decrease. -/
  ordered : ∀ plan ∈ plans, ∀ rank, rank < n → ∀ index, index < layout.group_size →
    0 ≤ countAt (plan.send_offsets rank) index
  /-- The partitions lie inside the buffer. -/
  inside : ∀ plan ∈ plans, ∀ rank, rank < n → ∀ index, index < layout.group_size →
    0 ≤ (plan.send_offsets rank).getD index 0 ∧
      (plan.send_offsets rank).getD (index + 1) 0 * plan.item_size ≤
        (plan.send_buffer rank).length
  /-- Byte offsets are 64-bit integers. -/
  addressable : ∀ plan ∈ plans, ∀ rank, rank < n →
    (plan.send_buffer rank).length < 2 ^ 63

/-- The same plan without compression. -/
def GroupPlan.uncompress (plan : GroupPlan) : GroupPlan :=
  { plan with compression_method := .none }

section

variable {n : Nat} (layout : Layout n) (gpu : Gpu)
  (group_by_batch include_current_rank : Bool)

/-- All ranks communicate and decompress the buffers of their plans. -/
def communicatePlans (plans : List GroupPlan) (rank : Nat) : Process ranks Memory :=
  communicate_and_postprocess gpu (plans.map (·.buffer rank)) (layout.group rank)
    (communicatorOf n group_by_batch rank) include_current_rank

/-- The compressor skips the partition of a rank for one member. -/
def GroupPlan.SkippedBySender (plan : GroupPlan) (rank index : Nat) : Prop :=
  (((plan.buffer rank).uncompressed (layout.group rank) rank
    include_current_rank).getD index (0, 0)).2 = 0

/-- The decompressor skips the partition that a rank gets from one member. -/
def GroupPlan.SkippedByReceiver (plan : GroupPlan) (rank index : Nat) : Prop :=
  (plan.arrivedPartition layout gpu include_current_rank rank index).2 = 0

/-- Compression is invisible: in every run no rank stops with an error and all
ranks return, with the contents of the receive buffers that any run without
compression returns; and a partition is skipped either on both sides or on
none. -/
structure Invisible (plans : List GroupPlan) : Prop where
  never_fails : ∀ eager state, Reaches (Configuration.step n eager)
      (Configuration.start (communicatePlans layout gpu group_by_batch
        include_current_rank plans)) state →
    ∀ rank, rank < n → ∀ reason, (state rank).process ≠ .fail reason
  returns : ∀ eager state, Reaches (Configuration.step n eager)
      (Configuration.start (communicatePlans layout gpu group_by_batch
        include_current_rank plans)) state →
    ∃ finish, Reaches (Configuration.step n eager) state finish ∧
      ∀ rank, rank < n → ∃ memory, (finish rank).process = .pure memory
  same_contents : ∀ eager state otherEager other,
    Reaches (Configuration.step n eager)
      (Configuration.start (communicatePlans layout gpu group_by_batch
        include_current_rank plans)) state →
    Reaches (Configuration.step n otherEager)
      (Configuration.start (communicatePlans layout gpu group_by_batch
        include_current_rank (plans.map GroupPlan.uncompress))) other →
    ∀ rank, rank < n → ∀ memory plainMemory,
      (state rank).process = .pure memory →
      (other rank).process = .pure plainMemory →
      ∀ plan ∈ plans, ∀ initial size,
        contents initial (writesTo (.plain plan.ptr) memory) size =
          contents initial (writesTo (.plain plan.ptr) plainMemory) size
  same_skipped : ∀ plan ∈ plans, plan.compression_method = .cascaded →
    ∀ rank, rank < n → ∀ index ∈ layout.indices include_current_rank rank,
      (plan.SkippedBySender layout include_current_rank (layout.member rank index)
          (layout.local_idx rank) ↔
        plan.SkippedByReceiver layout gpu include_current_rank rank index)

/-- How a rank ends. -/
def communicatedProcess (plans : List GroupPlan) (rank : Nat) :
    Process ranks Memory :=
  orFail (postprocess_all_to_all_comm gpu
      (plans.map fun plan => plan.completed layout gpu include_current_rank rank)
      (layout.group rank) (communicatorOf n group_by_batch rank)
      include_current_rank
      (received (arrived layout gpu include_current_rank plans rank))) >>=
    fun outputs => Process.pure
      (received (arrived layout gpu include_current_rank plans rank) ++ outputs)

/-- Every run of the communication ends in the same way. -/
theorem settles_communicatePlans
    (eager : Eagerness ranks)
    {plans : List GroupPlan}
    (supported : ∀ plan ∈ plans, plan.Supported) :
    Settles n eager
      (communicatePlans layout gpu group_by_batch include_current_rank plans)
      (communicatedProcess layout gpu group_by_batch include_current_rank plans)
      (communicateEvents layout gpu include_current_rank group_by_batch plans) := by
  refine Settles.of_phase (phase_communicate_buffers layout gpu include_current_rank
    group_by_batch supported)
    (fun rank communicated =>
      orFail (postprocess_all_to_all_comm gpu communicated.1 (layout.group rank)
          (communicatorOf n group_by_batch rank) include_current_rank
          (received communicated.2)) >>= fun outputs =>
        Process.pure (received communicated.2 ++ outputs)) fun rank _ => ?_
  simp only [Outcome.resume]
  cases postprocess_all_to_all_comm gpu
      (plans.map fun plan => plan.completed layout gpu include_current_rank rank)
      (layout.group rank) (communicatorOf n group_by_batch rank)
      include_current_rank
      (received (arrived layout gpu include_current_rank plans rank)) <;> trivial

/-- When all partitions are narrow, every rank returns. -/
theorem communicatedProcess_eq
    {plans : List GroupPlan}
    (wellPlanned : WellPlanned layout plans)
    (narrow : AllNarrow layout include_current_rank plans)
    {rank : Nat}
    (rankBound : rank < n) :
    communicatedProcess layout gpu group_by_batch include_current_rank plans rank =
      .pure (received (arrived layout gpu include_current_rank plans rank) ++
        postprocessed layout include_current_rank plans rank) := by
  rw [communicatedProcess, postprocess_eq_ok layout gpu include_current_rank
    wellPlanned narrow group_by_batch rankBound]
  rfl

end

section

variable {n : Nat} {layout : Layout n} {gpu : Gpu}
  {group_by_batch include_current_rank : Bool}

/-- Leaving out compression keeps a list of plans well planned. -/
theorem WellPlanned.uncompress
    {plans : List GroupPlan}
    (wellPlanned : WellPlanned layout plans) :
    WellPlanned layout (plans.map GroupPlan.uncompress) where
  supported := by
    intro plan member
    obtain ⟨original, _, rfl⟩ := List.mem_map.mp member
    exact .inl rfl
  matching := by
    intro plan member
    obtain ⟨original, originalMember, rfl⟩ := List.mem_map.mp member
    exact wellPlanned.matching original originalMember
  distinct := by
    rw [List.map_map]
    exact wellPlanned.distinct

theorem AllNarrow.uncompress (plans : List GroupPlan) :
    AllNarrow layout include_current_rank (plans.map GroupPlan.uncompress) := by
  intro plan member cascaded
  obtain ⟨original, _, rfl⟩ := List.mem_map.mp member
  contradiction

/-- The compressor sees the count of a partition as a `cudf::size_type`. -/
theorem GroupPlan.skippedBySender_iff
    (plan : GroupPlan)
    {rank index : Nat}
    (member : index ∈ layout.indices include_current_rank rank) :
    plan.SkippedBySender layout include_current_rank rank index ↔
      toSizeType (countAt (plan.send_offsets rank) index) = 0 := by
  obtain ⟨indexBound, included⟩ := layout.mem_indices.mp member
  have kept : ¬ (!include_current_rank && layout.member rank index == rank) = true := by
    rcases included with flag | different
    · simp [flag]
    · simp [different]
  unfold SkippedBySender AllToAllCommBuffer.uncompressed
  rw [List.getD_eq_getElem _ _ (by simpa using indexBound), List.getElem_map,
    List.getElem_range, Layout.get_global_rank_group, if_neg kept]
  rfl

/-- The decompressor sees the 64-bit count. -/
theorem GroupPlan.skippedByReceiver_iff
    (plan : GroupPlan)
    (cascaded : plan.compression_method = .cascaded)
    {rank index : Nat}
    (member : index ∈ layout.indices include_current_rank rank) :
    plan.SkippedByReceiver layout gpu include_current_rank rank index ↔
      plan.expected rank index = 0 := by
  rw [SkippedByReceiver, plan.arrivedPartition_of_included layout gpu
    include_current_rank cascaded member]

/-- Compression is invisible for narrow partitions. -/
theorem invisible_of_narrow
    {plans : List GroupPlan}
    (wellPlanned : WellPlanned layout plans)
    (narrow : AllNarrow layout include_current_rank plans) :
    Invisible layout gpu group_by_batch include_current_rank plans := by
  have settles := fun eager => settles_communicatePlans layout gpu group_by_batch
    include_current_rank eager wellPlanned.supported
  have plainSettles := fun eager => settles_communicatePlans layout gpu
    group_by_batch include_current_rank eager wellPlanned.uncompress.supported
  have returned := fun (rank : Nat) (rankBound : rank < n) =>
    communicatedProcess_eq layout gpu group_by_batch include_current_rank wellPlanned
      narrow rankBound
  constructor
  · intro eager state reached rank rankBound reason failed
    have final := ((settles eager).ended_eq reached rankBound (by
      rw [failed]
      trivial)).1
    rw [failed, returned rank rankBound] at final
    contradiction
  · intro eager state reached
    obtain ⟨finish, tail, finished⟩ := (settles eager).reaches_final reached
    exact ⟨finish, tail, fun rank rankBound =>
      ⟨_, (finished rank rankBound).1.trans (returned rank rankBound)⟩⟩
  · intro eager state otherEager other reached otherReached rank rankBound memory
      plainMemory ended plainEnded plan member initial size
    have final := (settles eager).returned_eq reached rankBound ended
    rw [returned rank rankBound] at final
    have plainFinal := (plainSettles otherEager).returned_eq otherReached rankBound
      plainEnded
    rw [communicatedProcess_eq layout gpu group_by_batch include_current_rank
      wellPlanned.uncompress (AllNarrow.uncompress plans) rankBound] at plainFinal
    cases final
    cases plainFinal
    have delivered := writesTo_communicated layout gpu include_current_rank
      wellPlanned rankBound member
    have plainDelivered := writesTo_communicated layout gpu include_current_rank
      wellPlanned.uncompress rankBound (List.mem_map_of_mem member)
    rw [← contents_filter, delivered, ← contents_filter initial
      (writesTo (.plain plan.ptr) _)]
    exact congrArg (contents initial · size) plainDelivered.symm
  · intro plan member cascaded rank rankBound index indexMember
    obtain ⟨indexBound, _⟩ := layout.mem_indices.mp indexMember
    have senderMember := layout.local_idx_mem_indices indexMember
    obtain ⟨nonnegative, bounded⟩ := narrow plan member cascaded
      (layout.member rank index) (layout.member_lt rankBound indexBound)
      (layout.local_idx rank) senderMember
    rw [plan.skippedBySender_iff senderMember,
      plan.skippedByReceiver_iff cascaded indexMember,
      toSizeType_eq nonnegative bounded, GroupPlan.expected,
      wellPlanned.matching plan member rank rankBound index indexBound]

/-- Two different byte counts, of which at most the smaller one is negative,
stay different as `size_t`. -/
theorem toSizeT_ne
    {small large : Int}
    (lower : -(2 ^ 34) ≤ small)
    (less : small < large)
    (nonnegative : 0 ≤ large)
    (upper : large < 2 ^ 63) :
    toSizeT small ≠ toSizeT large := by
  unfold toSizeT
  omega

/-- The byte count of a wrapped number of elements is not the byte count of the
number. -/
theorem toSizeT_toSizeType_ne
    {count : Int}
    {width : Nat}
    (large : 2 ^ 31 ≤ count)
    (widthBounds : 0 < width ∧ width ≤ 8)
    (addressable : count * width < 2 ^ 63) :
    toSizeT (toSizeType count * width) ≠ toSizeT (count * width) := by
  have lower : -(2 ^ 31) ≤ toSizeType count := Int.le_bmod (by decide)
  have upper : toSizeType count < 2 ^ 31 := Int.bmod_lt (by decide)
  generalize toSizeType count = wrapped at lower upper ⊢
  obtain ⟨widthPositive, widthLe⟩ := widthBounds
  have bounds : -(2 ^ 34) ≤ wrapped * width ∧ wrapped * width < count * width ∧
      0 ≤ count * width := by
    interval_cases width <;> omega
  exact toSizeT_ne bounds.1 bounds.2.1 bounds.2.2 addressable

/-- A wrapped number of elements that is not zero stands for some bytes. -/
theorem toSizeT_toSizeType_pos
    {count : Int}
    {width : Nat}
    (nonzero : toSizeType count ≠ 0)
    (widthBounds : 0 < width ∧ width ≤ 8) :
    0 < toSizeT (toSizeType count * width) := by
  have lower : -(2 ^ 31) ≤ toSizeType count := Int.le_bmod (by decide)
  have upper : toSizeType count < 2 ^ 31 := Int.bmod_lt (by decide)
  generalize toSizeType count = wrapped at nonzero lower upper ⊢
  obtain ⟨widthPositive, widthLe⟩ := widthBounds
  have bounds : -(2 ^ 34) ≤ wrapped * width ∧ wrapped * width < 2 ^ 34 ∧
      wrapped * width ≠ 0 := by
    interval_cases width <;> omega
  generalize wrapped * (width : Int) = bytes at bounds
  unfold toSizeT
  omega

/-- A loop that does not fail has no step that fails. -/
theorem ok_of_mapM_ok
    {α β ε : Type}
    {operation : α → Except ε β}
    {values : List α}
    {results : List β}
    (succeeds : values.mapM operation = .ok results)
    {value : α}
    (member : value ∈ values) :
    ∃ result, operation value = .ok result := by
  induction values generalizing results with
  | nil => simp at member
  | cons head tail inductionHypothesis =>
      rw [List.mapM_cons] at succeeds
      cases headResult : operation head with
      | error reason =>
          rw [headResult] at succeeds
          contradiction
      | ok first =>
          cases tailResult : tail.mapM operation with
          | error reason =>
              rw [headResult, tailResult] at succeeds
              contradiction
          | ok rest =>
              rcases List.mem_cons.mp member with rfl | later
              · exact ⟨first, headResult⟩
              · exact inductionHypothesis tailResult later

/-- A partition that the compressor has narrowed does not decompress to the
size that the receiver expects. -/
theorem GroupPlan.decompress_wide
    (plan : GroupPlan)
    (fixed : plan.dtype.id ≠ .STRING)
    (matching : layout.Matching plan.send_offsets plan.recv_offsets)
    {rank : Nat}
    (rankBound : rank < n)
    {index : Nat}
    (member : index ∈ layout.indices include_current_rank rank)
    (large : 2 ^ 31 ≤ plan.expected rank index)
    (addressable : plan.expected rank index * plan.item_size < 2 ^ 63)
    (sent : toSizeType (plan.expected rank index) ≠ 0) :
    (gpu.codec.decompress
        (plan.incomingBlock layout gpu include_current_rank rank index)).length ≠
      toSizeT (plan.expected rank index * plan.item_size) := by
  obtain ⟨indexBound, _⟩ := layout.mem_indices.mp member
  have agreed : plan.expected rank index =
      countAt (plan.send_offsets (layout.member rank index)) (layout.local_idx rank) :=
    matching rank rankBound index indexBound
  have widthBounds := TypeId.size_of_bounds fixed
  have positive := toSizeT_toSizeType_pos sent widthBounds
  rw [incomingBlock, plan.block_of_included layout gpu include_current_rank
    (layout.local_idx_mem_indices member), ← agreed, if_neg sent, gpu.codec.lossless _ _ _
      (List.ne_nil_of_length_pos (by rw [length_readRange]; exact positive)),
    length_readRange]
  exact toSizeT_toSizeType_ne large widthBounds addressable

/-- When `postprocess_all_to_all_comm` returns, every buffer was decompressed. -/
theorem decompress_buffer_of_postprocess
    {plans : List GroupPlan}
    {rank : Nat}
    {outputs : Memory}
    (processed : postprocess_all_to_all_comm gpu
      (plans.map fun plan => plan.completed layout gpu include_current_rank rank)
      (layout.group rank) (communicatorOf n group_by_batch rank)
      include_current_rank
      (received (arrived layout gpu include_current_rank plans rank)) = .ok outputs)
    {plan : GroupPlan}
    (member : plan ∈ plans) :
    ∃ written, decompress_buffer gpu (layout.group rank)
      (communicatorOf n group_by_batch rank) include_current_rank
      (received (arrived layout gpu include_current_rank plans rank))
      (plan.completed layout gpu include_current_rank rank) = .ok written := by
  unfold postprocess_all_to_all_comm at processed
  cases loop : (plans.map fun plan =>
      plan.completed layout gpu include_current_rank rank).mapM
        (decompress_buffer gpu (layout.group rank)
          (communicatorOf n group_by_batch rank) include_current_rank
          (received (arrived layout gpu include_current_rank plans rank))) with
  | error reason =>
      rw [loop] at processed
      contradiction
  | ok results =>
      exact ok_of_mapM_ok loop (List.mem_map_of_mem member)

/-- A compressed partition that is not narrow is not communicated invisibly: it
is skipped on the sender only, or the receiver stops with an error. -/
theorem not_invisible_of_wide
    {plans : List GroupPlan}
    (wellPlanned : WellPlanned layout plans)
    {plan : GroupPlan}
    (planMember : plan ∈ plans)
    (cascaded : plan.compression_method = .cascaded)
    {rank : Nat}
    (rankBound : rank < n)
    {index : Nat}
    (member : index ∈ layout.indices include_current_rank rank)
    (large : 2 ^ 31 ≤ plan.expected rank index)
    (addressable : plan.expected rank index * plan.item_size < 2 ^ 63) :
    ¬ Invisible layout gpu group_by_batch include_current_rank plans := by
  intro invisible
  obtain ⟨indexBound, _⟩ := layout.mem_indices.mp member
  have known := ((wellPlanned.supported plan planMember).cascaded
    (by simp [cascaded])).2
  have fixed : plan.dtype.id ≠ .STRING := by
    intro string
    rw [string] at known
    exact absurd known (by decide)
  have matching := wellPlanned.matching plan planMember
  have skipped := invisible.same_skipped plan planMember cascaded rank rankBound index
    member
  rw [plan.skippedBySender_iff (layout.local_idx_mem_indices member),
    plan.skippedByReceiver_iff cascaded member,
    ← matching rank rankBound index indexBound] at skipped
  have nonzero : plan.expected rank index ≠ 0 := by omega
  have sent : toSizeType (plan.expected rank index) ≠ 0 := fun zero =>
    nonzero (skipped.mp zero)
  obtain ⟨finish, tail, ended⟩ := invisible.returns (fun _ _ _ _ => true) _ (.refl _)
  obtain ⟨memory, returned⟩ := ended rank rankBound
  have final := (settles_communicatePlans layout gpu group_by_batch
    include_current_rank (fun _ _ _ _ => true) wellPlanned.supported).returned_eq tail
      rankBound returned
  unfold communicatedProcess at final
  cases processed : postprocess_all_to_all_comm gpu
      (plans.map fun plan => plan.completed layout gpu include_current_rank rank)
      (layout.group rank) (communicatorOf n group_by_batch rank)
      include_current_rank
      (received (arrived layout gpu include_current_rank plans rank)) with
  | error reason =>
      rw [processed] at final
      contradiction
  | ok outputs =>
      obtain ⟨written, decompressed⟩ :=
        decompress_buffer_of_postprocess processed planMember
      rw [plan.decompress_buffer_eq layout gpu include_current_rank cascaded
        group_by_batch (writesTo_compressed_arrived layout gpu include_current_rank
          wellPlanned.distinct planMember rank)] at decompressed
      cases functor : decompression_functor gpu.codec plan.dtype
          ((List.range layout.group_size).map
            (plan.arrivedPartition layout gpu include_current_rank rank)) with
      | error reason =>
          rw [functor] at decompressed
          contradiction
      | ok blocks =>
          rw [decompression_functor, if_pos known] at functor
          obtain ⟨result, restored⟩ := ok_of_mapM_ok functor
            (List.mem_map_of_mem (List.mem_range.mpr indexBound))
          rw [plan.arrivedPartition_of_included layout gpu include_current_rank
            cascaded member, if_neg nonzero] at restored
          have different : (gpu.codec.decompress (plan.incomingBlock layout gpu
              include_current_rank rank index)).length ≠
                toSizeT (plan.expected rank index * plan.item_size) :=
            plan.decompress_wide fixed matching rankBound member large addressable sent
          simp [different] at restored

/-- Compression is invisible if and only if no compressed partition that is sent
has `2 ^ 31` elements or more. -/
theorem compression_invisible_iff
    (gpu : Gpu)
    (group_by_batch include_current_rank : Bool)
    (buffers : BufferPlans layout) :
    Invisible layout gpu group_by_batch include_current_rank buffers.plans ↔
      ∀ plan ∈ buffers.plans, plan.compression_method = .cascaded →
        ∀ rank, rank < n → ∀ index ∈ layout.indices include_current_rank rank,
          countAt (plan.send_offsets rank) index < 2 ^ 31 := by
  constructor
  · intro invisible plan planMember cascaded rank rankBound index member
    obtain ⟨indexBound, _⟩ := layout.mem_indices.mp member
    by_contra wide
    have large : 2 ^ 31 ≤ countAt (plan.send_offsets rank) index := not_lt.mp wide
    have expected : plan.expected (layout.member rank index) (layout.local_idx rank) =
        countAt (plan.send_offsets rank) index := by
      have agreed := buffers.wellPlanned.matching plan planMember
        (layout.member rank index) (layout.member_lt rankBound indexBound)
        (layout.local_idx rank) (layout.local_idx_lt rank)
      rwa [layout.member_member rank _ indexBound, layout.member_local_idx,
        layout.local_idx_member rank indexBound] at agreed
    obtain ⟨startNonnegative, endInside⟩ :=
      buffers.inside plan planMember rank rankBound index indexBound
    have size := buffers.addressable plan planMember rank rankBound
    have bytes : countAt (plan.send_offsets rank) index * plan.item_size < 2 ^ 63 := by
      have less : countAt (plan.send_offsets rank) index ≤
          (plan.send_offsets rank).getD (index + 1) 0 :=
        Int.sub_le_self _ startNonnegative
      have scaled := Int.mul_le_mul_of_nonneg_right less
        (Int.natCast_nonneg plan.item_size)
      omega
    refine not_invisible_of_wide buffers.wellPlanned planMember cascaded
      (layout.member_lt rankBound indexBound) (layout.local_idx_mem_indices member)
      ?_ ?_ invisible
    · rw [expected]
      exact large
    · rw [expected]
      exact bytes
  · intro bounded
    refine invisible_of_narrow buffers.wellPlanned
      fun plan planMember cascaded rank rankBound index member => ?_
    exact ⟨buffers.ordered plan planMember rank rankBound index
        (layout.mem_indices.mp member).1,
      bounded plan planMember cascaded rank rankBound index member⟩

end

/-- Two ranks that send one number to the first of them and two to the second. -/
def threeNumbersPlan : GroupPlan where
  ptr := .data 0
  dtype := ⟨.INT32, 0⟩
  compression_method := .cascaded
  cascaded_format := fun _ => ⟨1, 1, 1⟩
  send_buffer := fun _ => [4, 0, 0, 0, 5, 0, 0, 0, 6, 0, 0, 0]
  send_offsets := fun _ => [0, 1, 3]
  recv_offsets := (Layout.whole 2 Nat.two_pos).exchanged fun _ => [0, 1, 3]

/-- The plan of three numbers, as a caller would make it. -/
def threeNumbersPlans : BufferPlans (Layout.whole 2 Nat.two_pos) where
  plans := [threeNumbersPlan]
  wellPlanned :=
    { supported := by
        intro plan member
        obtain rfl := List.mem_singleton.mp member
        exact .inr ⟨rfl, rfl⟩
      matching := by
        intro plan member
        obtain rfl := List.mem_singleton.mp member
        exact (Layout.whole 2 Nat.two_pos).matching_exchanged fun _ => [0, 1, 3]
      distinct := List.nodup_singleton _ }
  ordered := by
    intro plan member rank _ index indexBound
    obtain rfl := List.mem_singleton.mp member
    change index < 2 at indexBound
    change 0 ≤ countAt [0, 1, 3] index
    interval_cases index <;> decide
  inside := by
    intro plan member rank _ index indexBound
    obtain rfl := List.mem_singleton.mp member
    change index < 2 at indexBound
    change 0 ≤ ([0, 1, 3] : List Int).getD index 0 ∧
      ([0, 1, 3] : List Int).getD (index + 1) 0 * 4 ≤ 12
    interval_cases index <;> decide
  addressable := by
    intro plan member rank _
    obtain rfl := List.mem_singleton.mp member
    change 12 < 2 ^ 63
    decide

/-- Nobody sees that the numbers are compressed. -/
theorem compression_invisible_three_numbers :
    0 < countAt (threeNumbersPlan.send_offsets 0) 1 ∧
      Invisible (Layout.whole 2 Nat.two_pos) storingGpu false true threeNumbersPlans.plans := by
  refine ⟨by decide, (compression_invisible_iff storingGpu false true threeNumbersPlans).mpr ?_⟩
  intro plan planMember _ rank _ index member
  obtain rfl := List.mem_singleton.mp planMember
  have indexBound : index < 2 := ((Layout.whole 2 Nat.two_pos).mem_indices.mp member).1
  change countAt [0, 1, 3] index < 2 ^ 31
  interval_cases index <;> decide

/-- A rank that sends itself one partition of `2 ^ 32` bytes. -/
def widePlan : GroupPlan where
  ptr := .data 0
  dtype := ⟨.INT8, 0⟩
  compression_method := .cascaded
  cascaded_format := fun _ => ⟨1, 1, 1⟩
  send_buffer := fun _ => List.replicate (2 ^ 32) 0
  send_offsets := fun _ => [0, 2 ^ 32]
  recv_offsets := fun _ => [0, 2 ^ 32]

/-- The plan of `2 ^ 32` bytes, as a caller would make it. -/
def widePlans : BufferPlans Layout.singleRank where
  plans := [widePlan]
  wellPlanned :=
    { supported := by
        intro plan member
        obtain rfl := List.mem_singleton.mp member
        exact .inr ⟨rfl, rfl⟩
      matching := by
        intro plan member rank _ index indexBound
        obtain rfl := List.mem_singleton.mp member
        obtain rfl : index = 0 := Nat.lt_one_iff.mp indexBound
        obtain position : Layout.singleRank.local_idx rank = 0 :=
          Nat.lt_one_iff.mp (Layout.singleRank.local_idx_lt rank)
        rw [position]
        rfl
      distinct := List.nodup_singleton _ }
  ordered := by
    intro plan member rank _ index indexBound
    obtain rfl := List.mem_singleton.mp member
    obtain rfl : index = 0 := Nat.lt_one_iff.mp indexBound
    change 0 ≤ countAt [0, 2 ^ 32] 0
    decide
  inside := by
    intro plan member rank _ index indexBound
    obtain rfl := List.mem_singleton.mp member
    obtain rfl : index = 0 := Nat.lt_one_iff.mp indexBound
    refine ⟨Int.le_refl 0, ?_⟩
    change (2 ^ 32 : Int) * 1 ≤ (List.replicate (2 ^ 32) (0 : Byte)).length
    rw [List.length_replicate]
    decide
  addressable := by
    intro plan member rank _
    obtain rfl := List.mem_singleton.mp member
    change (List.replicate (2 ^ 32) (0 : Byte)).length < 2 ^ 63
    rw [List.length_replicate]
    decide

/-- A partition of `2 ^ 32` bytes is skipped by the compressor and expected by
the decompressor. -/
theorem compression_visible_wide :
    ¬ Invisible Layout.singleRank storingGpu false true widePlans.plans :=
  not_invisible_of_wide widePlans.wellPlanned (List.mem_singleton.mpr rfl) rfl
    Nat.one_pos (Layout.singleRank.mem_indices.mpr ⟨Nat.one_pos, .inl rfl⟩) (by decide)
    (by decide)

end DistributedJoin
