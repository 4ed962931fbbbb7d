import DistributedJoin.Comm.AllToAllCommunicator

/-!
# What the communication of a table does

The members of all groups redistribute tables of one schema. Nothing is assumed
about the contents of the tables or about the offsets.
-/

namespace DistributedJoin

open Device Spmd

/-- One collective use of `AllToAllCommunicator`: the groups, the tables of all
ranks, and the rows that every rank sends to the members of its group. -/
structure Redistribution (n : Nat) where
  layout : Layout n
  schema : List DataType
  table : Nat → Table
  /-- All ranks have tables of the same schema. -/
  same_schema : ∀ rank, rank < n → (table rank).schema = schema
  offsets : Nat → List Int
  options : List ColumnCompressionOptions
  group_by_batch : Bool
  explicit_copy_to_current_rank : Bool

namespace Redistribution

variable {n : Nat} (task : Redistribution n)

/-- The element type of a column. -/
def column_type (icol : Nat) : DataType := task.schema.getD icol Table.missingColumn.type

/-- Whether a column holds strings. -/
def IsString (icol : Nat) : Prop := (task.column_type icol).id = .STRING

instance (icol : Nat) : Decidable (task.IsString icol) :=
  inferInstanceAs (Decidable (_ = _))

theorem not_ne_string {icol : Nat} (string : task.IsString icol) :
    ¬ (task.column_type icol).id ≠ .STRING :=
  not_not.mpr string

theorem ne_string {icol : Nat} (fixed : ¬ task.IsString icol) :
    (task.column_type icol).id ≠ .STRING :=
  fixed

theorem length_table {rank : Nat} (rankBound : rank < n) :
    (task.table rank).length = task.schema.length := by
  rw [← task.same_schema rank rankBound, Table.schema, List.length_map]

theorem type_column {rank : Nat} (rankBound : rank < n) (icol : Nat) :
    ((task.table rank).column icol).type = task.column_type icol := by
  unfold column_type Table.column
  rw [← task.same_schema rank rankBound, Table.schema, List.getD_map]

/-- Where the characters start that a rank sends to each member. -/
def string_send_offsets (icol rank : Nat) : List Int :=
  gathered_offsets ((task.table rank).column icol) (task.offsets rank)

/-- Where a rank receives the characters from each member. -/
def string_recv_offsets (icol rank : Nat) : List Int :=
  task.layout.exchanged (task.string_send_offsets icol) rank

/-- Where a rank receives the rows from each member. -/
def recv_offsets (rank : Nat) : List Int := task.layout.exchanged task.offsets rank

/-- The sizes of the strings of a column that a rank sends. -/
def string_sizes_to_send (icol rank : Nat) : List Int :=
  string_sizes ((task.table rank).column icol) ((task.offsets rank).headD 0)
    ((task.offsets rank).getLastD 0)

/-- The communicator of a rank. -/
def communicator (rank : Nat) : Communicator :=
  communicatorOf n task.group_by_batch rank

/-- What the constructor returns on a rank. -/
def created (rank : Nat) : AllToAllCommunicator where
  input_table := task.table rank
  comm_group := task.layout.group rank
  communicator := task.communicator rank
  explicit_copy_to_current_rank := task.explicit_copy_to_current_rank
  send_offsets := task.offsets rank
  recv_offsets := task.recv_offsets rank
  string_send_offsets := (List.range task.schema.length).map fun icol =>
    if task.IsString icol then task.string_send_offsets icol rank else []
  string_recv_offsets := (List.range task.schema.length).map fun icol =>
    if task.IsString icol then task.string_recv_offsets icol rank else []
  string_sizes_to_send := (List.range task.schema.length).map fun icol =>
    if task.IsString icol then task.string_sizes_to_send icol rank else []
  compression_options := task.options

/-- What a rank does in the constructor. -/
def createEvents (rank : Nat) : List (Event ranks) :=
  task.layout.sizesEvents task.offsets rank ++
    (List.range task.schema.length).flatMap fun icol =>
      if task.IsString icol then
        task.layout.sizesEvents (task.string_send_offsets icol) rank
      else []

/-- The exchange of character offsets on all ranks. -/
theorem phase_gather_string_offsets {eager : Eagerness ranks} :
    Phase n eager (Arrivals.none ranks)
      (fun rank => gather_string_offsets (task.table rank) (task.offsets rank)
        (task.layout.group rank))
      (Arrivals.none ranks)
      (.ok fun rank => (List.range task.schema.length).map fun icol =>
        if task.IsString icol then
          (task.string_send_offsets icol rank, task.string_recv_offsets icol rank)
        else ([], []))
      (fun rank => (List.range task.schema.length).flatMap fun icol =>
        if task.IsString icol then
          task.layout.sizesEvents (task.string_send_offsets icol) rank
        else []) := by
  have column : ∀ icol ∈ List.range task.schema.length,
      Phase n eager (Arrivals.none ranks)
        (fun rank =>
          if ((task.table rank).column icol).type.id ≠ .STRING then
            (Process.pure ([], []) : Process ranks (List Int × List Int))
          else communicate_sizes (task.string_send_offsets icol rank)
              (task.layout.group rank) >>= fun string_recv_offsets =>
            Process.pure (task.string_send_offsets icol rank, string_recv_offsets))
        (Arrivals.none ranks)
        (.ok fun rank =>
          if task.IsString icol then
            (task.string_send_offsets icol rank, task.string_recv_offsets icol rank)
          else ([], []))
        (fun rank =>
          if task.IsString icol then
            task.layout.sizesEvents (task.string_send_offsets icol) rank
          else []) := by
    intro icol _
    by_cases string : task.IsString icol
    · simp only [if_pos string]
      have sizes : Phase n eager (Arrivals.none ranks) _ _ _ _ :=
        phase_communicate_sizes task.layout (task.string_send_offsets icol) rfl
      refine (sizes.map fun rank received =>
        (task.string_send_offsets icol rank, received)).congr
          fun rank rankBound => ?_
      rw [if_neg]
      rw [task.type_column rankBound icol]
      exact not_not.mpr string
    · simp only [if_neg string]
      refine (Phase.pure fun _ => ([], [])).congr fun rank rankBound => ?_
      rw [if_pos]
      rw [task.type_column rankBound icol]
      exact string
  refine (Phase.mapM _ column).congr fun rank rankBound => ?_
  rw [gather_string_offsets, task.length_table rankBound]
  rfl

/-- The constructor on all ranks. -/
theorem phase_create {eager : Eagerness ranks} :
    Phase n eager (Arrivals.none ranks)
      (fun rank => AllToAllCommunicator.create (task.table rank) (task.offsets rank)
        (task.layout.group rank) (task.communicator rank) task.options
        task.explicit_copy_to_current_rank)
      (Arrivals.none ranks) (.ok task.created) task.createEvents := by
  have rows : Phase n eager (Arrivals.none ranks) _ _ _ _ :=
    phase_communicate_sizes task.layout task.offsets rfl
  have composed : Phase n eager (Arrivals.none ranks)
      (fun rank => AllToAllCommunicator.create (task.table rank) (task.offsets rank)
        (task.layout.group rank) (task.communicator rank) task.options
        task.explicit_copy_to_current_rank)
      _ _ task.createEvents :=
    rows.bind (task.phase_gather_string_offsets.map fun rank string_offsets =>
      ({ input_table := task.table rank
         comm_group := task.layout.group rank
         communicator := task.communicator rank
         explicit_copy_to_current_rank := task.explicit_copy_to_current_rank
         send_offsets := task.offsets rank
         recv_offsets := task.recv_offsets rank
         string_send_offsets := string_offsets.map (·.1)
         string_recv_offsets := string_offsets.map (·.2)
         string_sizes_to_send := calculate_string_sizes_from_offsets (task.table rank)
           ((task.offsets rank).headD 0) ((task.offsets rank).getLastD 0)
         compression_options := task.options } : AllToAllCommunicator))
  refine composed.congr_result fun rank rankBound => ?_
  unfold created
  congr 1
  · rw [List.map_map]
    apply List.map_congr_left
    intro icol _
    rw [Function.comp_apply, apply_ite Prod.fst]
  · rw [List.map_map]
    apply List.map_congr_left
    intro icol _
    rw [Function.comp_apply, apply_ite Prod.snd]
  · rw [calculate_string_sizes_from_offsets, task.length_table rankBound]
    apply List.map_congr_left
    intro icol _
    rw [task.type_column rankBound icol]
    by_cases string : task.IsString icol
    · rw [if_neg (task.not_ne_string string), if_pos string]
      rfl
    · rw [if_pos (task.ne_string string), if_neg string]

/-- The options of a column. -/
def column_options (icol : Nat) : ColumnCompressionOptions :=
  task.options.getD icol .none

/-- The plans of all ranks for a fixed-width column. -/
def data_plan (icol : Nat) : GroupPlan where
  ptr := .data icol
  dtype := task.column_type icol
  compression_method := (task.column_options icol).compression_method
  cascaded_format := fun _ => (task.column_options icol).cascaded_format
  send_buffer := fun rank => ((task.table rank).column icol).head
  send_offsets := task.offsets
  recv_offsets := task.recv_offsets

/-- The plans of all ranks for the sizes of the strings of a column. -/
def sizes_plan (icol : Nat) : GroupPlan where
  ptr := .sizes icol
  dtype := ⟨.INT32, 0⟩
  compression_method := ((task.column_options icol).child 0).compression_method
  cascaded_format := fun _ => ((task.column_options icol).child 0).cascaded_format
  send_buffer := fun rank => encodeWords 4 (task.string_sizes_to_send icol rank)
  send_offsets := task.offsets
  recv_offsets := task.recv_offsets

/-- The plans of all ranks for the characters of a column. -/
def chars_plan (icol : Nat) : GroupPlan where
  ptr := .chars icol
  dtype := ⟨.INT8, 0⟩
  compression_method := ((task.column_options icol).child 1).compression_method
  cascaded_format := fun _ => ((task.column_options icol).child 1).cascaded_format
  send_buffer := fun rank => ((task.table rank).column icol).child_chars
  send_offsets := task.string_send_offsets icol
  recv_offsets := task.string_recv_offsets icol

/-- The plans of all ranks for all columns. -/
def plans : List GroupPlan :=
  (List.range task.schema.length).flatMap fun icol =>
    if task.IsString icol then [task.sizes_plan icol, task.chars_plan icol]
    else [task.data_plan icol]

theorem getD_of_string
    {α : Type}
    (value : Nat → List α)
    {icol : Nat}
    (icolBound : icol < task.schema.length)
    (string : task.IsString icol) :
    ((List.range task.schema.length).map fun icol =>
      if task.IsString icol then value icol else []).getD icol [] = value icol := by
  rw [List.getD_eq_getElem _ _ (by simpa using icolBound), List.getElem_map,
    List.getElem_range, if_pos string]

/-- Every rank appends its part of the plans. -/
theorem append_created {rank : Nat} (rankBound : rank < n) :
    (task.created rank).append_to_all_to_all_comm_buffers =
      task.plans.map (·.buffer rank) := by
  unfold AllToAllCommunicator.append_to_all_to_all_comm_buffers plans
  rw [List.map_flatMap]
  have length : (task.created rank).input_table.length = task.schema.length :=
    task.length_table rankBound
  rw [length]
  apply List.flatMap_congr
  intro icol member
  have icolBound : icol < task.schema.length := List.mem_range.mp member
  have type : ((task.created rank).input_table.column icol).type =
      task.column_type icol := task.type_column rankBound icol
  rw [type]
  by_cases string : task.IsString icol
  · rw [if_neg (task.not_ne_string string), if_pos string]
    have sizes := task.getD_of_string (fun icol => task.string_sizes_to_send icol rank)
      icolBound string
    have sends := task.getD_of_string (fun icol => task.string_send_offsets icol rank)
      icolBound string
    have receives := task.getD_of_string
      (fun icol => task.string_recv_offsets icol rank) icolBound string
    simp only [AllToAllCommunicator.sizes_plan, AllToAllCommunicator.sizes_buffer,
      AllToAllCommunicator.chars_plan, created, sizes, sends, receives]
    rfl
  · rw [if_pos (task.ne_string string), if_neg string]
    simp only [AllToAllCommunicator.data_plan, type]
    rfl

/-- The offsets of every plan match: the counts that ranks receive by are those
that their peers send by. -/
theorem matching_plans :
    ∀ plan ∈ task.plans,
      task.layout.Matching plan.send_offsets plan.recv_offsets := by
  intro plan member
  obtain ⟨icol, _, column⟩ := List.mem_flatMap.mp member
  split at column
  · rcases List.mem_cons.mp column with rfl | column
    · exact task.layout.matching_exchanged task.offsets
    · obtain rfl := List.mem_singleton.mp column
      exact task.layout.matching_exchanged (task.string_send_offsets icol)
  · obtain rfl := List.mem_singleton.mp column
    exact task.layout.matching_exchanged task.offsets

/-- Different plans are for different buffers. -/
theorem distinct_plans : (task.plans.map (·.ptr)).Nodup := by
  unfold plans
  rw [List.map_flatMap, List.nodup_flatMap]
  constructor
  · intro icol _
    split <;> simp [sizes_plan, chars_plan, data_plan]
  · refine List.nodup_range.pairwise_of_forall_ne fun first _ second _ different => ?_
    simp only [Function.onFun]
    split <;> split <;>
      simp [sizes_plan, chars_plan, data_plan, different.symm]

/-- What a rank copies of one buffer without sending it. -/
def own_copy (plan : GroupPlan) (rank : Nat) : Copy where
  target := .plain plan.ptr
  target_start := (plan.recv_offsets rank).getD (task.layout.local_idx rank) 0 *
    plan.item_size
  source := .plain plan.ptr
  source_start := (plan.send_offsets rank).getD (task.layout.local_idx rank) 0 *
    plan.item_size
  bytes := plan.piece task.layout rank (task.layout.local_idx rank)

/-- A rank receives from itself what it sends to itself. -/
theorem countAt_own
    (send_offset : Nat → List Int)
    (rank : Nat) :
    countAt (task.layout.exchanged send_offset rank) (task.layout.local_idx rank) =
      countAt (send_offset rank) (task.layout.local_idx rank) := by
  rw [task.layout.countAt_exchanged send_offset rank (task.layout.local_idx_lt rank),
    task.layout.member_local_idx]

theorem data_copy_created
    {rank icol : Nat}
    (rankBound : rank < n) :
    (task.created rank).data_copy icol = task.own_copy (task.data_plan icol) rank := by
  have type : ((task.created rank).input_table.column icol).type =
      task.column_type icol := task.type_column rankBound icol
  have rows : countAt (task.created rank).recv_offsets (task.created rank).local_idx =
      countAt (task.offsets rank) (task.layout.local_idx rank) :=
    task.countAt_own task.offsets rank
  simp only [AllToAllCommunicator.data_copy, rows, type, own_copy, GroupPlan.piece,
    data_plan, Layout.member_local_idx]
  rfl

theorem sizes_copy_created
    {rank icol : Nat}
    (icolBound : icol < task.schema.length)
    (string : task.IsString icol) :
    (task.created rank).sizes_copy icol =
      task.own_copy (task.sizes_plan icol) rank := by
  have rows : countAt (task.created rank).recv_offsets (task.created rank).local_idx =
      countAt (task.offsets rank) (task.layout.local_idx rank) :=
    task.countAt_own task.offsets rank
  have buffer : (task.created rank).sizes_buffer icol =
      encodeWords 4 (task.string_sizes_to_send icol rank) := by
    rw [← task.getD_of_string (fun icol => task.string_sizes_to_send icol rank)
      icolBound string]
    rfl
  simp only [AllToAllCommunicator.sizes_copy, rows, buffer, own_copy, GroupPlan.piece,
    sizes_plan, Layout.member_local_idx]
  rfl

theorem chars_copy_created
    {rank icol : Nat}
    (icolBound : icol < task.schema.length)
    (string : task.IsString icol) :
    (task.created rank).chars_copy icol =
      task.own_copy (task.chars_plan icol) rank := by
  have sends : (task.created rank).string_send_offsets.getD icol [] =
      task.string_send_offsets icol rank :=
    task.getD_of_string (fun icol => task.string_send_offsets icol rank) icolBound string
  have receives : (task.created rank).string_recv_offsets.getD icol [] =
      task.string_recv_offsets icol rank :=
    task.getD_of_string (fun icol => task.string_recv_offsets icol rank) icolBound string
  have width : ((task.chars_plan icol).item_size : Int) = 1 := rfl
  simp only [AllToAllCommunicator.chars_copy, sends, receives, own_copy,
    GroupPlan.piece, width, mul_one]
  simp only [chars_plan, Layout.member_local_idx]
  rfl

/-- Every rank copies its part of the plans. -/
theorem copies_created {rank : Nat} (rankBound : rank < n) :
    (task.created rank).copies =
      task.plans.map fun plan => task.own_copy plan rank := by
  unfold AllToAllCommunicator.copies plans
  rw [List.map_flatMap]
  have length : (task.created rank).input_table.length = task.schema.length :=
    task.length_table rankBound
  rw [length]
  apply List.flatMap_congr
  intro icol member
  have icolBound : icol < task.schema.length := List.mem_range.mp member
  have type : ((task.created rank).input_table.column icol).type =
      task.column_type icol := task.type_column rankBound icol
  rw [type]
  by_cases string : task.IsString icol
  · rw [if_neg (task.not_ne_string string), if_pos string,
      task.sizes_copy_created icolBound string, task.chars_copy_created icolBound string]
    rfl
  · rw [if_pos (task.ne_string string), if_neg string, task.data_copy_created rankBound]
    rfl

/-- What is written to the memory of a rank when the communicated table is
allocated. -/
def allocated (rank : Nat) : Memory :=
  if task.explicit_copy_to_current_rank then
    task.plans.map fun plan =>
      ((task.own_copy plan rank).target,
        ⟨(task.own_copy plan rank).target_start, (task.own_copy plan rank).bytes⟩)
  else []

/-- What a rank does when it allocates the communicated table. -/
def allocateEvents (rank : Nat) : List (Event ranks) :=
  if task.explicit_copy_to_current_rank then
    task.plans.map fun plan =>
      .noted (.copied (task.own_copy plan rank).target
        (task.own_copy plan rank).target_start (task.own_copy plan rank).source
        (task.own_copy plan rank).source_start (task.own_copy plan rank).bytes.length)
  else []

/-- A rank asks for a column of a negative size, which is an error. -/
def Refused (rank : Nat) : Prop := ∃ size ∈ (task.created rank).requested_sizes, size < 0

instance (rank : Nat) : Decidable (task.Refused rank) :=
  inferInstanceAs (Decidable (∃ size ∈ (task.created rank).requested_sizes, size < 0))

/-- No rank asks for a column of a negative size. -/
def Allocates : Prop := ∀ rank, rank < n → ¬ task.Refused rank

/-- The columns of a rank that does not ask for negative sizes are created. -/
theorem allocate_of_not_refused {rank : Nat} (accepted : ¬ task.Refused rank) :
    (task.created rank).allocate_communicated_table =
      if task.explicit_copy_to_current_rank then
        (task.created rank).copy_table_to_current_rank
      else pure [] := by
  have nonnegative : ¬ ∃ size ∈ (task.created rank).requested_sizes, size < 0 := accepted
  rw [AllToAllCommunicator.allocate_communicated_table,
    AllToAllCommunicator.allocate_communicated_table_helper_eq, if_neg nonnegative]
  rfl

/-- A rank that asks for a column of a negative size stops. -/
theorem allocate_of_refused {rank : Nat} (refused : task.Refused rank) :
    (task.created rank).allocate_communicated_table =
      .fail "Column size cannot be negative." := by
  have negative : ∃ size ∈ (task.created rank).requested_sizes, size < 0 := refused
  rw [AllToAllCommunicator.allocate_communicated_table,
    AllToAllCommunicator.allocate_communicated_table_helper_eq, if_pos negative]
  rfl

/-- What follows the creation of the columns. -/
theorem phase_copy {eager : Eagerness ranks} :
    Phase n eager (Arrivals.none ranks)
      (fun rank =>
        if task.explicit_copy_to_current_rank then
          (task.created rank).copy_table_to_current_rank
        else Process.pure [])
      (Arrivals.none ranks) (.ok task.allocated) task.allocateEvents := by
  cases explicit : task.explicit_copy_to_current_rank with
  | false =>
      have nothing : Phase n eager (Arrivals.none ranks)
          (fun _ => Process.pure ([] : Memory)) (Arrivals.none ranks) _ _ :=
        Phase.pure fun _ => []
      have memory : task.allocated = fun _ => [] := by
        funext rank
        simp [allocated, explicit]
      have events : task.allocateEvents = fun _ => [] := by
        funext rank
        simp [allocateEvents, explicit]
      rw [memory, events]
      exact nothing
  | true =>
      let copied : Nat → GroupPlan → Note := fun rank plan =>
        .copied (task.own_copy plan rank).target
          (task.own_copy plan rank).target_start (task.own_copy plan rank).source
          (task.own_copy plan rank).source_start
          (task.own_copy plan rank).bytes.length
      let written : Nat → GroupPlan → Buffer × Write := fun rank plan =>
        ((task.own_copy plan rank).target,
          ⟨(task.own_copy plan rank).target_start, (task.own_copy plan rank).bytes⟩)
      have each : ∀ plan ∈ task.plans, Phase n eager (Arrivals.none ranks)
          (fun rank => Process.observe (I := ranks) (copied rank plan) >>= fun _ =>
            Process.pure (written rank plan))
          (Arrivals.none ranks) (.ok fun rank => written rank plan)
          (fun rank => [.noted (copied rank plan)]) := fun plan _ =>
        (Phase.observe (I := ranks) fun rank => copied rank plan).map
          fun rank _ => written rank plan
      have memory : task.allocated = fun rank => task.plans.map (written rank) := by
        funext rank
        simp [allocated, explicit, written]
      have events : task.allocateEvents = fun rank =>
          task.plans.flatMap fun plan => [.noted (copied rank plan)] := by
        funext rank
        simp [allocateEvents, explicit, copied, ← List.map_eq_flatMap]
      rw [memory, events]
      refine (Phase.mapM task.plans each).congr fun rank rankBound => ?_
      rw [if_pos rfl, AllToAllCommunicator.copy_table_to_current_rank,
        task.copies_created rankBound, List.mapM_map]
      rfl

/-- The allocation of the communicated tables on all ranks. -/
theorem attempt_allocate {eager : Eagerness ranks} :
    Attempt task.Allocates n eager (Arrivals.none ranks)
      (fun rank => (task.created rank).allocate_communicated_table)
      (Arrivals.none ranks) (.ok task.allocated) task.allocateEvents := by
  refine ⟨_, fun rank _ => ?_, fun allocates rank rankBound =>
    task.allocate_of_not_refused (allocates rank rankBound), task.phase_copy⟩
  dsimp only
  by_cases refused : task.Refused rank
  · rw [task.allocate_of_refused refused]
    exact .fail _ _
  · rw [task.allocate_of_not_refused refused]
    exact .refl _

/-- Copies are no transfers. -/
theorem dual_allocateEvents (group_by_batch : Bool) :
    Dual n group_by_batch task.allocateEvents := by
  refine .of_silent fun rank _ event member peer => ?_
  unfold allocateEvents at member
  split at member
  · obtain ⟨plan, _, rfl⟩ := List.mem_map.mp member
    exact ⟨rfl, rfl⟩
  · simp at member

/-- Neither is the exchange of sizes. -/
theorem silent_createEvents
    {rank : Nat}
    {event : Event ranks}
    (member : event ∈ task.createEvents rank)
    (peer : Nat) :
    sendToken peer event = none ∧ recvToken peer event = none := by
  rcases List.mem_append.mp member with rows | strings
  · exact silent_sizesEvents task.layout rows peer
  · obtain ⟨icol, _, column⟩ := List.mem_flatMap.mp strings
    split at column
    · exact silent_sizesEvents task.layout column peer
    · contradiction

theorem dual_createEvents (group_by_batch : Bool) :
    Dual n group_by_batch task.createEvents :=
  .of_silent fun _ _ _ member => task.silent_createEvents member

/-- What a rank does when it launches the communication. -/
def launchEvents (gpu : Gpu) (rank : Nat) : List (Event ranks) :=
  communicateEvents task.layout gpu (!task.explicit_copy_to_current_rank)
    task.group_by_batch task.plans rank

/-- What is written to the memory of a rank by the communication. -/
def launched (gpu : Gpu) (rank : Nat) : Memory :=
  received (arrived task.layout gpu (!task.explicit_copy_to_current_rank) task.plans
      rank) ++
    postprocessed task.layout (!task.explicit_copy_to_current_rank) task.plans rank

/-- All columns can be sent as planned. -/
def Supported : Prop := ∀ plan ∈ task.plans, plan.Supported

/-- No partition that is compressed is too large to be counted. -/
def Narrow : Prop :=
  AllNarrow task.layout (!task.explicit_copy_to_current_rank) task.plans

/-- The launch of the communication on all ranks. -/
theorem phase_launch
    {eager : Eagerness ranks}
    (gpu : Gpu)
    (supported : task.Supported)
    (narrow : task.Narrow)
    (memory : Nat → Memory) :
    Phase n eager (Arrivals.none ranks)
      (fun rank => (task.created rank).launch_communication gpu (memory rank))
      (Arrivals.none ranks)
      (.ok fun rank => (task.created rank).communicated_table gpu
        (memory rank ++ task.launched gpu rank))
      (task.launchEvents gpu) := by
  have wellPlanned : WellPlanned task.layout task.plans :=
    ⟨supported, task.matching_plans, task.distinct_plans⟩
  have communicated : Phase n eager (Arrivals.none ranks) _ _ _ _ :=
    phase_communicate_and_postprocess task.layout gpu
      (!task.explicit_copy_to_current_rank) task.group_by_batch supported
      fun rank rankBound => postprocess_eq_ok task.layout gpu
        (!task.explicit_copy_to_current_rank) wellPlanned narrow task.group_by_batch
        rankBound
  refine (communicated.map fun rank received =>
    (task.created rank).communicated_table gpu (memory rank ++ received)).congr
      fun rank rankBound => ?_
  rw [AllToAllCommunicator.launch_communication, task.append_created rankBound]
  rfl

/-- A column that cannot be sent as planned stops all ranks. -/
theorem phase_launch_unsupported
    {eager : Eagerness ranks}
    (gpu : Gpu)
    (unsupported : ¬ task.Supported)
    (memory : Nat → Memory) :
    ∃ after reason events, Phase n eager (Arrivals.none ranks)
      (fun rank => (task.created rank).launch_communication gpu (memory rank))
      after (.error reason) events ∧ Dual n task.group_by_batch events := by
  obtain ⟨after, reason, events, stopped, dual⟩ :=
    phase_communicate_unsupported_list task.layout gpu
      (!task.explicit_copy_to_current_rank) task.group_by_batch task.matching_plans
      unsupported
  have interrupted : Phase n eager (Arrivals.none ranks)
      (fun rank => communicate_and_postprocess gpu (task.plans.map (·.buffer rank))
          (task.layout.group rank) (communicatorOf n task.group_by_batch rank)
          (!task.explicit_copy_to_current_rank) >>= fun received =>
        Process.pure ((task.created rank).communicated_table gpu
          (memory rank ++ received)))
      after (.error reason) events := stopped.bind_error
  refine ⟨after, reason, events, interrupted.congr fun rank rankBound => ?_, dual⟩
  rw [AllToAllCommunicator.launch_communication, task.append_created rankBound]
  rfl

theorem dual_launchEvents (gpu : Gpu) :
    Dual n task.group_by_batch (task.launchEvents gpu) :=
  dual_communicateEvents task.layout gpu (!task.explicit_copy_to_current_rank)
    task.group_by_batch task.matching_plans

/-- All that is written to the memory of a rank. -/
def memory (gpu : Gpu) (rank : Nat) : Memory :=
  task.allocated rank ++ task.launched gpu rank

/-- The communicated table of a rank. -/
def communicated (gpu : Gpu) (rank : Nat) : Table :=
  (task.created rank).communicated_table gpu (task.memory gpu rank)

/-- What a rank does during the whole communication. -/
def events (gpu : Gpu) (rank : Nat) : List (Event ranks) :=
  task.createEvents rank ++ (task.allocateEvents rank ++ task.launchEvents gpu rank)

/-- The program of all ranks. -/
def program (gpu : Gpu) (rank : Nat) : Process ranks Table :=
  redistribute gpu (task.table rank) (task.offsets rank) (task.layout.group rank)
    (task.communicator rank) task.options task.explicit_copy_to_current_rank

/-- The whole communication on all ranks. -/
theorem attempt_program
    {eager : Eagerness ranks}
    (gpu : Gpu)
    (supported : task.Supported)
    (narrow : task.Narrow) :
    Attempt task.Allocates n eager (Arrivals.none ranks) (task.program gpu)
      (Arrivals.none ranks) (.ok (task.communicated gpu)) (task.events gpu) :=
  task.phase_create.attempt.bind (task.attempt_allocate.bind
    (task.phase_launch gpu supported narrow task.allocated).attempt)

/-- The whole communication if all columns can be created. -/
theorem phase_program
    {eager : Eagerness ranks}
    (gpu : Gpu)
    (supported : task.Supported)
    (narrow : task.Narrow)
    (allocates : task.Allocates) :
    Phase n eager (Arrivals.none ranks) (task.program gpu) (Arrivals.none ranks)
      (.ok (task.communicated gpu)) (task.events gpu) :=
  (task.attempt_program gpu supported narrow).phase allocates

/-- If a column cannot be sent as planned, all ranks stop with an error. -/
theorem attempt_program_unsupported
    (eager : Eagerness ranks)
    (gpu : Gpu)
    (unsupported : ¬ task.Supported) :
    ∃ after reason events, Attempt task.Allocates n eager (Arrivals.none ranks)
      (task.program gpu) after (.error reason) events ∧ Dual n task.group_by_batch events := by
  obtain ⟨after, reason, events, stopped, dual⟩ :=
    task.phase_launch_unsupported gpu unsupported task.allocated
  exact ⟨after, reason, _,
    task.phase_create.attempt.bind (task.attempt_allocate.bind stopped.attempt),
    (task.dual_createEvents task.group_by_batch).append
      ((task.dual_allocateEvents task.group_by_batch).append dual)⟩

/-- A rank that asks for a column of a negative size fails. -/
theorem reaches_refused
    (eager : Eagerness ranks)
    (gpu : Gpu)
    {rank : Nat}
    (rankBound : rank < n)
    (refused : task.Refused rank) :
    ∃ state, Reaches (Configuration.step n eager)
        (Configuration.start (task.program gpu)) state ∧
      (state rank).process = .fail "Column size cannot be negative." := by
  obtain ⟨state, reached, _, finished⟩ := task.phase_create _
    (fun _ created => created.allocate_communicated_table >>= fun memory =>
      created.launch_communication gpu memory)
    (Configuration.start (task.program gpu)) (resolved_start _) fun _ _ => rfl
  refine ⟨state, reached, (finished rank rankBound).1.trans ?_⟩
  change (task.created rank).allocate_communicated_table >>= _ = _
  rw [task.allocate_of_refused refused]
  rfl

theorem not_returns_of_refused
    (eager : Eagerness ranks)
    (gpu : Gpu)
    {rank : Nat}
    (rankBound : rank < n)
    (refused : task.Refused rank)
    (result : Nat → Table) :
    ¬ Returns n eager (task.program gpu) result := by
  intro returns
  obtain ⟨_, reached, failed⟩ := task.reaches_refused eager gpu rankBound refused
  exact not_produces_of_failed reached failed _ ((returns.produces_iff rankBound).mpr rfl)

/-- Whatever is to be communicated, what the ranks plan is dual. -/
theorem planned_program
    {eager : Eagerness ranks}
    (gpu : Gpu)
    (narrow : task.Narrow) :
    Planned task.Allocates n eager task.group_by_batch (task.program gpu)
      (task.communicated gpu) := by
  by_cases supported : task.Supported
  · exact .of_attempt (task.attempt_program gpu supported narrow)
      ((task.dual_createEvents task.group_by_batch).append
        ((task.dual_allocateEvents task.group_by_batch).append (task.dual_launchEvents gpu)))
  · obtain ⟨_, reason, _, stopped, dual⟩ :=
      task.attempt_program_unsupported eager gpu supported
    exact ⟨_, _, _, stopped, dual, .inl ⟨reason, rfl⟩⟩

end Redistribution

end DistributedJoin
