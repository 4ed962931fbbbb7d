import DistributedJoin.Comm.Delivery

/-!
# Communicating a list of buffers

The whole of an all-to-all communication: the group or groups of transfers, and
the decompression that follows.
-/

namespace DistributedJoin

open Device Spmd

variable {n : Nat} (layout : Layout n) (gpu : Gpu) (include_current_rank : Bool)

/-- What a rank does to communicate a list of buffers. -/
def communicateEvents
    (group_by_batch : Bool)
    (plans : List GroupPlan)
    (rank : Nat) : List (Event ranks) :=
  groupEvents (!group_by_batch) (plans.flatMap fun plan =>
    plan.events layout gpu include_current_rank group_by_batch rank)

/-- All that a rank receives. -/
def arrived (plans : List GroupPlan) (rank : Nat) : List (Landing × Transfer) :=
  plans.flatMap fun plan => plan.wire layout gpu include_current_rank rank

/-- The communication of all buffers on all ranks. -/
theorem phase_communicate_buffers
    {eager : Eagerness ranks}
    (group_by_batch : Bool)
    {plans : List GroupPlan}
    (supported : ∀ plan ∈ plans, plan.Supported) :
    Phase n eager (Arrivals.none ranks)
      (fun rank => communicate_buffers gpu (plans.map (·.buffer rank))
        (layout.group rank) (communicatorOf n group_by_batch rank)
        include_current_rank)
      (Arrivals.none ranks)
      (.ok fun rank =>
        (plans.map fun plan => plan.completed layout gpu include_current_rank rank,
          arrived layout gpu include_current_rank plans rank))
      (communicateEvents layout gpu include_current_rank group_by_batch plans) := by
  have transfers : Phase n eager (Arrivals.none ranks) _ _ _ _ :=
    phase_all_to_all_comm plans layout gpu include_current_rank supported
      (Ready.none group_by_batch)
  cases group_by_batch with
  | false =>
      have nothing : (pending false fun rank => plans.flatMap fun plan =>
          plan.wire layout gpu include_current_rank rank) = fun _ => [] := rfl
      rw [nothing, Arrivals.deliver_nil] at transfers
      have returned := transfers.map fun _ communicated =>
        (communicated.1, communicated.2 ++ [])
      refine (returned.congr fun rank _ => ?_).congr_result fun rank _ => ?_
      · simp only [communicate_buffers, communicatorOf]
        rfl
      · simp [collected, arrived]
  | true =>
      have opened : Phase n eager (Arrivals.none ranks)
          (fun _ => Communicator.start) (Arrivals.none ranks) (.ok fun _ => ()) _ :=
        Phase.observe (I := ranks) fun _ => .start
      have closed : Phase n eager
          ((Arrivals.none ranks).deliver .communicator
            (arrived layout gpu include_current_rank plans))
          (fun _ => Communicator.stop) _ _ _ := Phase.await (I := ranks) .communicator
      rw [Arrivals.settle_deliver rfl, Arrivals.deliver_quiet rfl] at closed
      have composed : Phase n eager (Arrivals.none ranks)
          (fun rank => Communicator.start >>= fun _ =>
            all_to_all_comm gpu (plans.map (·.buffer rank)) (layout.group rank)
              (communicatorOf n true rank) include_current_rank >>=
            fun communicated => Communicator.stop >>= fun arrivals =>
              Process.pure (communicated.1, communicated.2 ++ arrivals))
          _ _ _ :=
        opened.bind (transfers.bind (closed.map fun rank arrivals =>
          (plans.map fun plan => plan.completed layout gpu include_current_rank rank,
            [] ++ arrivals)))
      refine (composed.congr fun rank _ => ?_).congr_result fun rank _ => ?_
      · simp only [communicate_buffers, communicatorOf]
        rfl
      · rfl

/-- Buffers with matching offsets are communicated by dual plans. -/
theorem dual_communicateEvents
    (group_by_batch : Bool)
    {plans : List GroupPlan}
    (matching : ∀ plan ∈ plans,
      layout.Matching plan.send_offsets plan.recv_offsets) :
    Dual n group_by_batch
      (communicateEvents layout gpu include_current_rank group_by_batch plans) := by
  have inner : Dual n group_by_batch fun rank => plans.flatMap fun plan =>
      plan.events layout gpu include_current_rank group_by_batch rank :=
    Dual.flatMap fun plan member =>
      plan.dual_events layout include_current_rank gpu group_by_batch
        (matching plan member)
  cases group_by_batch with
  | false => exact inner
  | true =>
      refine ⟨fun source dest sourceBound destBound => ?_,
        fun ungrouped => by contradiction⟩
      have same := inner.matching source dest sourceBound destBound
      simp only [communicateEvents, groupEvents, sendTape, recvTape] at same ⊢
      simp [same, sendToken, recvToken]

/-- Communication followed by a decompression that fails on no rank. -/
theorem phase_communicate_and_postprocess
    {eager : Eagerness ranks}
    (group_by_batch : Bool)
    {plans : List GroupPlan}
    (supported : ∀ plan ∈ plans, plan.Supported)
    {outputs : Nat → Memory}
    (processed : ∀ rank, rank < n →
      postprocess_all_to_all_comm gpu
        (plans.map fun plan => plan.completed layout gpu include_current_rank rank)
        (layout.group rank) (communicatorOf n group_by_batch rank)
        include_current_rank
        (received (arrived layout gpu include_current_rank plans rank)) =
          .ok (outputs rank)) :
    Phase n eager (Arrivals.none ranks)
      (fun rank => communicate_and_postprocess gpu (plans.map (·.buffer rank))
        (layout.group rank) (communicatorOf n group_by_batch rank)
        include_current_rank)
      (Arrivals.none ranks)
      (.ok fun rank =>
        received (arrived layout gpu include_current_rank plans rank) ++ outputs rank)
      (communicateEvents layout gpu include_current_rank group_by_batch plans) := by
  have communicated : Phase n eager (Arrivals.none ranks) _ _ _ _ :=
    phase_communicate_buffers layout gpu include_current_rank group_by_batch supported
  have written : Phase n eager (Arrivals.none ranks)
      (fun rank => orFail (postprocess_all_to_all_comm gpu
          (plans.map fun plan => plan.completed layout gpu include_current_rank rank)
          (layout.group rank) (communicatorOf n group_by_batch rank)
          include_current_rank
          (received (arrived layout gpu include_current_rank plans rank))) >>=
        fun outputs => Process.pure
          (received (arrived layout gpu include_current_rank plans rank) ++ outputs))
      (Arrivals.none ranks)
      (.ok fun rank =>
        received (arrived layout gpu include_current_rank plans rank) ++ outputs rank)
      (fun _ => []) := by
    refine (Phase.pure _).congr fun rank rankBound => ?_
    rw [processed rank rankBound]
    rfl
  have composed : Phase n eager (Arrivals.none ranks)
      (fun rank => communicate_and_postprocess gpu (plans.map (·.buffer rank))
        (layout.group rank) (communicatorOf n group_by_batch rank)
        include_current_rank)
      _ _ _ := communicated.bind written
  simpa using composed

/-- A list with a plan that cannot be carried out, cut at the first such plan. -/
theorem exists_first_unsupported
    {plans : List GroupPlan}
    (unsupported : ¬ ∀ plan ∈ plans, plan.Supported) :
    ∃ before plan after, plans = before ++ plan :: after ∧
      (∀ earlier ∈ before, earlier.Supported) ∧ ¬ plan.Supported := by
  induction plans with
  | nil => exact absurd (by simp) unsupported
  | cons head tail inductionHypothesis =>
      by_cases first : head.Supported
      · obtain ⟨before, plan, after, rfl, earlier, bad⟩ :=
          inductionHypothesis fun all => unsupported fun plan member => by
            rcases List.mem_cons.mp member with rfl | later
            · exact first
            · exact all plan later
        refine ⟨head :: before, plan, after, rfl, fun other member => ?_, bad⟩
        rcases List.mem_cons.mp member with rfl | later
        · exact first
        · exact earlier other later
      · exact ⟨[], head, tail, rfl, by simp, first⟩

/-- A plan that cannot be carried out stops all ranks at the same buffer; what
they have planned until then is dual. -/
theorem phase_communicate_unsupported_list
    {eager : Eagerness ranks}
    (group_by_batch : Bool)
    {plans : List GroupPlan}
    (matching : ∀ plan ∈ plans,
      layout.Matching plan.send_offsets plan.recv_offsets)
    (unsupported : ¬ ∀ plan ∈ plans, plan.Supported) :
    ∃ after reason events, Phase n eager (Arrivals.none ranks)
      (fun rank => communicate_and_postprocess gpu (plans.map (·.buffer rank))
        (layout.group rank) (communicatorOf n group_by_batch rank)
        include_current_rank)
      after (.error reason) events ∧ Dual n group_by_batch events := by
  obtain ⟨before, plan, rest, cut, earlier, bad⟩ := exists_first_unsupported unsupported
  have transfers : Phase n eager (Arrivals.none ranks) _ _ _ _ :=
    Phase.mapM_deliver (Ready group_by_batch)
      (fun arrivals plan holds => holds.deliver
        (plan.wire layout gpu include_current_rank)) before
      (fun plan member arrivals holds =>
        phase_communicate_buffer plan layout gpu include_current_rank
          (earlier plan member) holds) (Ready.none group_by_batch)
  have innerDual : Dual n group_by_batch fun rank => before.flatMap fun plan =>
      plan.events layout gpu include_current_rank group_by_batch rank :=
    Dual.flatMap fun plan member =>
      plan.dual_events layout include_current_rank gpu group_by_batch
        (matching plan (by simp [cut, member]))
  obtain ⟨reason, stopped⟩ := phase_communicate_unsupported eager plan layout gpu
    group_by_batch include_current_rank bad
  let communicate : Nat → GroupPlan →
      Process ranks (AllToAllCommBuffer × List (Landing × Transfer)) :=
    fun rank plan => communicate_buffer gpu (layout.group rank)
      (communicatorOf n group_by_batch rank) include_current_rank (plan.buffer rank)
  let finish : Nat → List (AllToAllCommBuffer × List (Landing × Transfer)) →
      Process ranks Memory := fun rank results => do
    let arrivals ← if group_by_batch then Communicator.stop else Process.pure []
    let memory := received (results.flatMap (·.2) ++ arrivals)
    let outputs ← orFail (postprocess_all_to_all_comm gpu (results.map (·.1))
      (layout.group rank) (communicatorOf n group_by_batch rank)
      include_current_rank memory)
    Process.pure (memory ++ outputs)
  have interrupted : Phase n eager (Arrivals.none ranks)
      (fun rank => before.mapM (communicate rank) >>= fun results =>
        communicate rank plan >>= fun result =>
          rest.mapM (communicate rank) >>= fun others =>
            finish rank (results ++ result :: others))
      _ (.error reason) _ := transfers.bind (stopped _).bind_error
  have unfolded : ∀ rank, (plans.mapM (communicate rank) >>= finish rank) =
      (before.mapM (communicate rank) >>= fun results =>
        communicate rank plan >>= fun result =>
          rest.mapM (communicate rank) >>= fun others =>
            finish rank (results ++ result :: others)) := by
    intro rank
    rw [cut, List.mapM_append, List.mapM_cons]
    simp only [bind_assoc, pure_bind]
  have whole : ∀ rank, communicate_and_postprocess gpu (plans.map (·.buffer rank))
      (layout.group rank) (communicatorOf n group_by_batch rank)
      include_current_rank =
        ((if group_by_batch then Communicator.start else Process.pure ()) >>= fun _ =>
          plans.mapM (communicate rank) >>= finish rank) := by
    intro rank
    cases group_by_batch <;>
    · simp only [communicate_and_postprocess, communicate_buffers, all_to_all_comm,
        List.mapM_map, communicatorOf, Bool.false_eq_true, if_false, if_true,
        bind_assoc, pure_bind]
      rfl
  cases group_by_batch with
  | false =>
      refine ⟨_, reason, _, interrupted.congr fun rank _ => ?_, ?_⟩
      · rw [whole, unfolded]
        rfl
      · simpa using innerDual
  | true =>
      have opened : Phase n eager (Arrivals.none ranks)
          (fun _ => Communicator.start) (Arrivals.none ranks) (.ok fun _ => ()) _ :=
        Phase.observe (I := ranks) fun _ => .start
      have composed : Phase n eager (Arrivals.none ranks)
          (fun rank => Communicator.start >>= fun _ =>
            before.mapM (communicate rank) >>= fun results =>
              communicate rank plan >>= fun result =>
                rest.mapM (communicate rank) >>= fun others =>
                  finish rank (results ++ result :: others))
          _ (.error reason) _ := opened.bind interrupted
      refine ⟨_, reason, _, composed.congr fun rank _ => ?_, ?_⟩
      · rw [whole, unfolded]
        rfl
      · refine ⟨fun source dest sourceBound destBound => ?_,
          fun ungrouped => by contradiction⟩
        have same := innerDual.matching source dest sourceBound destBound
        simp only [sendTape, recvTape] at same ⊢
        simp [same, sendToken, recvToken]

/-- A list of plans that can be carried out: every buffer is received where its
own column expects it, and the offsets of the ranks match. -/
structure WellPlanned (plans : List GroupPlan) : Prop where
  supported : ∀ plan ∈ plans, plan.Supported
  matching : ∀ plan ∈ plans, layout.Matching plan.send_offsets plan.recv_offsets
  distinct : (plans.map (·.ptr)).Nodup

/-- Partitions that are compressed have as many elements as `cudf::size_type`
can count. -/
def AllNarrow (plans : List GroupPlan) : Prop :=
  ∀ plan ∈ plans, plan.compression_method = .cascaded →
    plan.Narrow layout include_current_rank

/-- The part of a list that depends on one key. -/
theorem flatMap_of_distinct
    {α β κ : Type}
    {key : α → κ}
    {values : List α}
    (distinct : (values.map key).Nodup)
    {part : α → List β}
    {value : α}
    (member : value ∈ values)
    (others : ∀ other ∈ values, key other ≠ key value → part other = []) :
    values.flatMap part = part value := by
  obtain ⟨before, after, rfl⟩ := List.append_of_mem member
  rw [List.map_append, List.map_cons] at distinct
  obtain ⟨_, afterDistinct, apart⟩ := List.nodup_append.mp distinct
  have beforeNil : before.flatMap part = [] := by
    rw [List.flatMap_eq_nil_iff]
    intro other otherMember
    refine others other (by simp [otherMember]) fun same => ?_
    exact apart (key other) (List.mem_map_of_mem otherMember) (key value) (by simp) same
  have afterNil : after.flatMap part = [] := by
    rw [List.flatMap_eq_nil_iff]
    intro other otherMember
    refine others other (by simp [otherMember]) fun same => ?_
    exact (List.nodup_cons.mp afterDistinct).1
      (same ▸ List.mem_map_of_mem otherMember)
  rw [List.flatMap_append, List.flatMap_cons, beforeNil, afterNil]
  simp

/-- Writes to one buffer, collected from several lists. -/
theorem writesTo_flatMap
    {α : Type}
    (buffer : Buffer)
    (values : List α)
    (part : α → Memory) :
    writesTo buffer (values.flatMap part) =
      values.flatMap fun value => writesTo buffer (part value) :=
  List.filterMap_flatMap

theorem received_arrived (plans : List GroupPlan) (rank : Nat) :
    received (arrived layout gpu include_current_rank plans rank) =
      plans.flatMap fun plan =>
        received (plan.wire layout gpu include_current_rank rank) :=
  List.map_flatMap

/-- The receives of a plan write to the buffers of its own column only. -/
theorem GroupPlan.writesTo_wire_of_ne
    (plan : GroupPlan)
    {buffer : Buffer}
    (notPlain : buffer ≠ .plain plan.ptr ∨ plan.compression_method ≠ .none)
    (notCompressed : buffer ≠ .compressed plan.ptr ∨ plan.compression_method = .none)
    (rank : Nat) :
    writesTo buffer (received (plan.wire layout gpu include_current_rank rank)) =
      [] := by
  unfold GroupPlan.wire
  split
  · rename_i uncompressed
    refine writesTo_transfers_of_ne layout include_current_rank ?_ _ _ _ _ _
    exact (notPlain.resolve_right fun other => other uncompressed).symm
  · rename_i compressed
    refine writesTo_transfers_of_ne layout include_current_rank ?_ _ _ _ _ _
    exact (notCompressed.resolve_right compressed).symm

/-- The compressed receive buffer of a plan holds what the plan receives. -/
theorem writesTo_compressed_arrived
    {plans : List GroupPlan}
    (distinct : (plans.map (·.ptr)).Nodup)
    {plan : GroupPlan}
    (member : plan ∈ plans)
    (rank : Nat) :
    writesTo (.compressed plan.ptr)
        (received (arrived layout gpu include_current_rank plans rank)) =
      writesTo (.compressed plan.ptr)
        (received (plan.wire layout gpu include_current_rank rank)) := by
  rw [received_arrived, writesTo_flatMap]
  refine flatMap_of_distinct distinct member fun other _ different => ?_
  refine other.writesTo_wire_of_ne layout gpu include_current_rank
    (.inl (by simp)) (.inl ?_) rank
  simpa using Ne.symm different

/-- The receive buffer of a plan gets what the plan receives. -/
theorem writesTo_plain_arrived
    {plans : List GroupPlan}
    (distinct : (plans.map (·.ptr)).Nodup)
    {plan : GroupPlan}
    (member : plan ∈ plans)
    (rank : Nat) :
    writesTo (.plain plan.ptr)
        (received (arrived layout gpu include_current_rank plans rank)) =
      writesTo (.plain plan.ptr)
        (received (plan.wire layout gpu include_current_rank rank)) := by
  rw [received_arrived, writesTo_flatMap]
  refine flatMap_of_distinct distinct member fun other _ different => ?_
  refine other.writesTo_wire_of_ne layout gpu include_current_rank (.inl ?_)
    (.inl (by simp)) rank
  simpa using Ne.symm different

/-- What `postprocess_all_to_all_comm` writes. -/
def postprocessed (plans : List GroupPlan) (rank : Nat) : Memory :=
  plans.flatMap fun plan =>
    if plan.compression_method = .none then []
    else plan.decompressed layout include_current_rank rank

theorem GroupPlan.Supported.cascaded
    {plan : GroupPlan}
    (supported : plan.Supported)
    (compressed : plan.compression_method ≠ .none) :
    plan.compression_method = .cascaded ∧ plan.dtype.id.compressible = true :=
  supported.resolve_left compressed

/-- Partitions of at most `2 ^ 31 - 1` elements are decompressed without an
error. -/
theorem postprocess_eq_ok
    {plans : List GroupPlan}
    (wellPlanned : WellPlanned layout plans)
    (narrow : AllNarrow layout include_current_rank plans)
    (group_by_batch : Bool)
    {rank : Nat}
    (rankBound : rank < n) :
    postprocess_all_to_all_comm gpu
        (plans.map fun plan => plan.completed layout gpu include_current_rank rank)
        (layout.group rank) (communicatorOf n group_by_batch rank)
        include_current_rank
        (received (arrived layout gpu include_current_rank plans rank)) =
      .ok (postprocessed layout include_current_rank plans rank) := by
  unfold postprocess_all_to_all_comm
  have each : ∀ plan ∈ plans,
      decompress_buffer gpu (layout.group rank)
          (communicatorOf n group_by_batch rank) include_current_rank
          (received (arrived layout gpu include_current_rank plans rank))
          (plan.completed layout gpu include_current_rank rank) =
        .ok (if plan.compression_method = .none then []
          else plan.decompressed layout include_current_rank rank) := by
    intro plan member
    by_cases uncompressed : plan.compression_method = .none
    · rw [if_pos uncompressed, GroupPlan.completed, if_pos uncompressed,
        decompress_buffer]
      exact if_pos uncompressed
    · obtain ⟨cascaded, known⟩ :=
        (wellPlanned.supported plan member).cascaded uncompressed
      rw [if_neg uncompressed]
      exact plan.decompress_buffer_compressed layout gpu include_current_rank
        cascaded known (narrow plan member cascaded)
        (wellPlanned.matching plan member) group_by_batch rankBound
        (writesTo_compressed_arrived layout gpu include_current_rank
          wellPlanned.distinct member rank)
  rw [List.mapM_map]
  have loop := mapM_eq_ok plans each
  rw [Function.comp_def, loop]
  exact congrArg Except.ok List.flatMap_def.symm

/-- After communication and decompression the receive buffer of every plan
holds, up to empty writes, exactly the partitions that the members of the group
have for the rank. -/
theorem writesTo_communicated
    {plans : List GroupPlan}
    (wellPlanned : WellPlanned layout plans)
    {rank : Nat}
    (rankBound : rank < n)
    {plan : GroupPlan}
    (member : plan ∈ plans) :
    (writesTo (.plain plan.ptr)
        (received (arrived layout gpu include_current_rank plans rank) ++
          postprocessed layout include_current_rank plans rank)).filter
            (fun write => !write.bytes.isEmpty) =
      (plan.deliveries layout include_current_rank rank).filter
        fun write => !write.bytes.isEmpty := by
  have receives : writesTo (.plain plan.ptr)
      (received (arrived layout gpu include_current_rank plans rank)) =
      writesTo (.plain plan.ptr)
        (received (plan.wire layout gpu include_current_rank rank)) :=
    writesTo_plain_arrived layout gpu include_current_rank wellPlanned.distinct member rank
  have outputs : writesTo (.plain plan.ptr)
      (postprocessed layout include_current_rank plans rank) =
      writesTo (.plain plan.ptr)
        (if plan.compression_method = .none then []
          else plan.decompressed layout include_current_rank rank) := by
    rw [postprocessed, writesTo_flatMap]
    refine flatMap_of_distinct wellPlanned.distinct member fun other _ different => ?_
    split
    · rfl
    · unfold writesTo GroupPlan.decompressed
      rw [List.filterMap_map, List.filterMap_eq_nil_iff]
      intro index _
      simp [different]
  rw [writesTo_append, receives, outputs]
  by_cases uncompressed : plan.compression_method = .none
  · rw [if_pos uncompressed, plan.writesTo_wire_none layout gpu include_current_rank
      uncompressed]
    simp [writesTo]
  · rw [if_neg uncompressed, plan.writesTo_wire_of_ne layout gpu include_current_rank
      (.inr uncompressed) (.inl (by simp)) rank, List.nil_append]
    exact plan.writesTo_decompressed layout include_current_rank
      (wellPlanned.matching plan member) rankBound

end DistributedJoin
