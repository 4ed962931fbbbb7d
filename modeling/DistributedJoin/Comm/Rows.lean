import DistributedJoin.Comm.Placement

/-!
# The rows of a communicated table

When the offsets of all ranks cut their tables into consecutive parts, each rank
receives its parts from all members of its group. Every column of the
communicated table is then the concatenation of these parts.
-/

namespace DistributedJoin

open Device Spmd

namespace Redistribution

variable {n : Nat} (task : Redistribution n)

/-- The tables are sound, and the offsets of every rank cut its table into one
part for each member of the group. -/
structure Sound : Prop where
  sound_tables : ∀ rank, rank < n → (task.table rank).Sound
  offsets_length : ∀ rank, rank < n →
    (task.offsets rank).length = task.layout.group_size + 1
  offsets_sorted : ∀ rank, rank < n → (task.offsets rank).Pairwise (· ≤ ·)
  offsets_inside : ∀ rank, rank < n → ∀ offset ∈ task.offsets rank,
    0 ≤ offset ∧ offset ≤ (task.table rank).num_rows

/-- The tables are sound and not sliced, and the offsets of every rank cut its table
into one part for each member of the group. -/
structure Whole : Prop extends task.Sound where
  unsliced : ∀ rank, rank < n → ∀ column ∈ task.table rank, column.offset = 0

/-- The tables are well formed, and the offsets of every rank cut its table into
one part for each member of the group. -/
structure WellFormed : Prop extends task.Sound where
  tables : ∀ rank, rank < n → (task.table rank).WellFormed

/-- The first row that a rank sends to a member. -/
def first_row (rank index : Nat) : Nat := ((task.offsets rank).getD index 0).toNat

/-- How many rows a rank sends to a member. -/
def row_count (rank index : Nat) : Nat := (countAt (task.offsets rank) index).toNat

/-- The part of a list that a rank sends to a member. -/
def part {α : Type} (values : List α) (rank index : Nat) : List α :=
  (values.drop (task.first_row rank index)).take (task.row_count rank index)

/-- What a rank gets of lists that all ranks cut at their offsets. -/
def gathered {α : Type} (values : Nat → List α) (rank : Nat) : List α :=
  (List.range task.layout.group_size).flatMap fun index =>
    task.part (values (task.layout.member rank index))
      (task.layout.member rank index) (task.layout.local_idx rank)

/-- How many rows a rank receives. -/
def received_rows (rank : Nat) : Int := (task.layout.incoming task.offsets rank).sum

/-- How many characters of a string column a rank receives. -/
def received_chars (icol rank : Nat) : Int :=
  (task.layout.incoming (task.string_send_offsets icol) rank).sum

theorem getLastD_recv_offsets (rank : Nat) :
    (task.recv_offsets rank).getLastD 0 = task.received_rows rank :=
  getLastD_offsetsOf _

theorem getLastD_string_recv_offsets (icol rank : Nat) :
    (task.string_recv_offsets icol rank).getLastD 0 = task.received_chars icol rank :=
  getLastD_offsetsOf _

variable {task}

namespace Sound

theorem getD_offsets_le
    (sound : task.Sound)
    {rank first second : Nat}
    (rankBound : rank < n)
    (ordered : first ≤ second)
    (inside : second ≤ task.layout.group_size) :
    (task.offsets rank).getD first 0 ≤ (task.offsets rank).getD second 0 := by
  have size := sound.offsets_length rank rankBound
  rw [List.getD_eq_getElem _ _ (by omega), List.getD_eq_getElem _ _ (by omega)]
  rcases Nat.lt_or_eq_of_le ordered with less | rfl
  · exact List.pairwise_iff_getElem.mp (sound.offsets_sorted rank rankBound)
      _ _ _ _ less
  · exact Int.le_refl _

theorem getD_offsets_inside
    (sound : task.Sound)
    {rank index : Nat}
    (rankBound : rank < n)
    (inside : index ≤ task.layout.group_size) :
    0 ≤ (task.offsets rank).getD index 0 ∧
      (task.offsets rank).getD index 0 ≤ (task.table rank).num_rows := by
  have size := sound.offsets_length rank rankBound
  rw [List.getD_eq_getElem _ _ (by omega)]
  exact sound.offsets_inside rank rankBound _ (List.getElem_mem _)

theorem getD_offsets_eq
    (sound : task.Sound)
    {rank index : Nat}
    (rankBound : rank < n)
    (inside : index ≤ task.layout.group_size) :
    (task.offsets rank).getD index 0 = task.first_row rank index :=
  (Int.toNat_of_nonneg (sound.getD_offsets_inside rankBound inside).1).symm

theorem countAt_nonneg
    (sound : task.Sound)
    {rank index : Nat}
    (rankBound : rank < n)
    (indexBound : index < task.layout.group_size) :
    0 ≤ countAt (task.offsets rank) index :=
  Int.sub_nonneg_of_le
    (sound.getD_offsets_le rankBound (Nat.le_add_right index 1) indexBound)

theorem countAt_eq
    (sound : task.Sound)
    {rank index : Nat}
    (rankBound : rank < n)
    (indexBound : index < task.layout.group_size) :
    countAt (task.offsets rank) index = task.row_count rank index :=
  (Int.toNat_of_nonneg (sound.countAt_nonneg rankBound indexBound)).symm

/-- The parts lie side by side. -/
theorem first_row_succ
    (sound : task.Sound)
    {rank index : Nat}
    (rankBound : rank < n)
    (indexBound : index < task.layout.group_size) :
    task.first_row rank (index + 1) =
      task.first_row rank index + task.row_count rank index := by
  have here := sound.getD_offsets_eq rankBound (Nat.le_of_lt indexBound)
  have next : (task.offsets rank).getD (index + 1) 0 = task.first_row rank (index + 1) :=
    sound.getD_offsets_eq rankBound indexBound
  have count := sound.countAt_eq rankBound indexBound
  unfold countAt at count
  omega

/-- A part ends inside the table. -/
theorem part_inside
    (sound : task.Sound)
    {rank index : Nat}
    (rankBound : rank < n)
    (indexBound : index < task.layout.group_size) :
    task.first_row rank index + task.row_count rank index ≤
      (task.table rank).num_rows.toNat := by
  rw [← sound.first_row_succ rankBound indexBound]
  have next : (task.offsets rank).getD (index + 1) 0 = task.first_row rank (index + 1) :=
    sound.getD_offsets_eq rankBound indexBound
  have inside : (task.offsets rank).getD (index + 1) 0 ≤ (task.table rank).num_rows :=
    (sound.getD_offsets_inside rankBound indexBound).2
  omega

theorem column_mem
    {rank icol : Nat}
    (rankBound : rank < n)
    (icolBound : icol < task.schema.length) :
    (task.table rank).column icol ∈ task.table rank := by
  have inside : icol < (task.table rank).length := by
    rw [task.length_table rankBound]
    exact icolBound
  rw [Table.column, List.getD_eq_getElem _ _ inside]
  exact List.getElem_mem inside

theorem sound_column
    (sound : task.Sound)
    {rank icol : Nat}
    (rankBound : rank < n)
    (icolBound : icol < task.schema.length) :
    ((task.table rank).column icol).Sound :=
  (sound.sound_tables rank rankBound).columns _ (column_mem rankBound icolBound)

theorem size_column
    (sound : task.Sound)
    {rank icol : Nat}
    (rankBound : rank < n)
    (icolBound : icol < task.schema.length) :
    ((task.table rank).column icol).size = (task.table rank).num_rows :=
  (sound.sound_tables rank rankBound).sizes _ (column_mem rankBound icolBound)

/-- A part ends inside every column. -/
theorem part_inside_column
    (sound : task.Sound)
    {rank icol index : Nat}
    (rankBound : rank < n)
    (icolBound : icol < task.schema.length)
    (indexBound : index < task.layout.group_size) :
    task.first_row rank index + task.row_count rank index ≤
      ((task.table rank).column icol).size.toNat := by
  rw [sound.size_column rankBound icolBound]
  exact sound.part_inside rankBound indexBound

theorem getD_string_send_offsets
    (sound : task.Sound)
    {rank icol index : Nat}
    (rankBound : rank < n)
    (inside : index ≤ task.layout.group_size) :
    (task.string_send_offsets icol rank).getD index 0 =
      ((task.table rank).column icol).child_offsets.getD
        (task.first_row rank index) 0 := by
  have size := sound.offsets_length rank rankBound
  have bound : index < (task.offsets rank).length := by omega
  unfold string_send_offsets gathered_offsets first_row
  rw [List.getD_eq_getElem _ _ (by simpa using bound), List.getElem_map,
    List.getD_eq_getElem _ _ bound]

/-- The characters of a part. -/
theorem countAt_string_send_offsets
    (sound : task.Sound)
    {rank icol index : Nat}
    (rankBound : rank < n)
    (indexBound : index < task.layout.group_size) :
    countAt (task.string_send_offsets icol rank) index =
      ((task.table rank).column icol).child_offsets.getD
          (task.first_row rank index + task.row_count rank index) 0 -
        ((task.table rank).column icol).child_offsets.getD
          (task.first_row rank index) 0 := by
  rw [countAt, sound.getD_string_send_offsets rankBound indexBound,
    sound.getD_string_send_offsets rankBound (Nat.le_of_lt indexBound),
    sound.first_row_succ rankBound indexBound]

theorem countAt_string_send_offsets_nonneg
    (sound : task.Sound)
    {rank icol index : Nat}
    (rankBound : rank < n)
    (icolBound : icol < task.schema.length)
    (string : task.IsString icol)
    (indexBound : index < task.layout.group_size) :
    0 ≤ countAt (task.string_send_offsets icol rank) index := by
  rw [sound.countAt_string_send_offsets rankBound indexBound]
  have type : ((task.table rank).column icol).type.id = .STRING := by
    rw [task.type_column rankBound icol]
    exact string
  exact Int.sub_nonneg_of_le ((sound.sound_column rankBound icolBound).offsets_le type
    (Nat.le_add_right _ _) (sound.part_inside_column rankBound icolBound indexBound))

theorem placed_data (sound : task.Sound) (icol : Nat) :
    (task.data_plan icol).Placed task.layout where
  exchanged := rfl
  nonneg := fun _ rankBound _ indexBound =>
    sound.countAt_nonneg rankBound indexBound

theorem placed_sizes (sound : task.Sound) (icol : Nat) :
    (task.sizes_plan icol).Placed task.layout where
  exchanged := rfl
  nonneg := fun _ rankBound _ indexBound =>
    sound.countAt_nonneg rankBound indexBound

theorem placed_chars
    (sound : task.Sound)
    {icol : Nat}
    (icolBound : icol < task.schema.length)
    (string : task.IsString icol) :
    (task.chars_plan icol).Placed task.layout where
  exchanged := rfl
  nonneg := fun _ rankBound _ indexBound =>
    sound.countAt_string_send_offsets_nonneg rankBound icolBound string indexBound

/-- The received rows are the rows of the gathered parts. -/
theorem length_gathered
    (sound : task.Sound)
    {α : Type}
    {values : Nat → List α}
    {rank : Nat}
    (rankBound : rank < n)
    (lengths : ∀ source, source < n →
      (values source).length = (task.table source).num_rows.toNat) :
    ((task.gathered values rank).length : Int) = task.received_rows rank := by
  unfold gathered received_rows Layout.incoming
  rw [List.length_flatMap, Nat.cast_list_sum, List.map_map]
  congr 1
  apply List.map_congr_left
  intro index range
  have indexBound : index < task.layout.group_size := List.mem_range.mp range
  have sourceBound := task.layout.member_lt rankBound indexBound
  have ownBound := task.layout.local_idx_lt rank
  have inside := sound.part_inside sourceBound ownBound
  rw [Function.comp_apply, sound.countAt_eq sourceBound ownBound, part,
    List.length_take, List.length_drop, lengths _ sourceBound]
  congr 1
  omega

end Sound

variable (task)

/-- The elements of a column that a rank gets from the members of its group. -/
def gathered_elements (icol rank : Nat) : List (List Byte) :=
  task.gathered (fun source => ((task.table source).column icol).elements) rank

/-- The elements at the beginning of the buffers of the members of its group that
a rank gets. -/
def gathered_head_elements (icol rank : Nat) : List (List Byte) :=
  task.gathered (fun source => ((task.table source).column icol).head_elements) rank

theorem column_communicated
    (gpu : Gpu)
    {rank icol : Nat}
    (rankBound : rank < n)
    (icolBound : icol < task.schema.length) :
    (task.communicated gpu rank).column icol =
      (task.created rank).communicated_column gpu (task.memory gpu rank) icol := by
  have inside : icol < (task.created rank).input_table.length :=
    icolBound.trans_eq (task.length_table rankBound).symm
  rw [communicated, AllToAllCommunicator.communicated_table, Table.column,
    List.getD_eq_getElem _ _ (by simpa using inside), List.getElem_map,
    List.getElem_range]

theorem communicated_rows_created (rank : Nat) :
    (task.created rank).communicated_rows = toSizeType (task.received_rows rank) := by
  rw [← task.getLastD_recv_offsets rank]
  rfl

theorem type_communicated
    (gpu : Gpu)
    {rank icol : Nat}
    (rankBound : rank < n)
    (icolBound : icol < task.schema.length) :
    ((task.communicated gpu rank).column icol).type = task.column_type icol := by
  rw [task.column_communicated gpu rankBound icolBound]
  unfold AllToAllCommunicator.communicated_column
  split <;> exact task.type_column rankBound icol

theorem size_communicated
    (gpu : Gpu)
    {rank icol : Nat}
    (rankBound : rank < n)
    (icolBound : icol < task.schema.length) :
    ((task.communicated gpu rank).column icol).size =
      toSizeType (task.received_rows rank) := by
  rw [task.column_communicated gpu rankBound icolBound,
    ← task.communicated_rows_created rank]
  unfold AllToAllCommunicator.communicated_column
  split <;> rfl

/-- The communicated tables have the schema of the tables that were sent. -/
theorem schema_communicated
    (gpu : Gpu)
    {rank : Nat}
    (rankBound : rank < n) :
    (task.communicated gpu rank).schema = task.schema := by
  have length : (task.communicated gpu rank).length = task.schema.length := by
    rw [communicated, AllToAllCommunicator.communicated_table, List.length_map,
      List.length_range]
    exact task.length_table rankBound
  apply List.ext_getElem
  · rw [Table.schema, List.length_map, length]
  · intro icol _ icolBound
    have type := task.type_communicated gpu rankBound icolBound
    rw [Table.column, List.getD_eq_getElem _ _ (by omega), column_type,
      List.getD_eq_getElem _ _ icolBound] at type
    rw [← type]
    simp [Table.schema]

theorem plan_mem_data
    {icol : Nat}
    (icolBound : icol < task.schema.length)
    (fixed : ¬ task.IsString icol) :
    task.data_plan icol ∈ task.plans := by
  refine List.mem_flatMap.mpr ⟨icol, List.mem_range.mpr icolBound, ?_⟩
  rw [if_neg fixed]
  exact List.mem_singleton.mpr rfl

theorem plan_mem_sizes
    {icol : Nat}
    (icolBound : icol < task.schema.length)
    (string : task.IsString icol) :
    task.sizes_plan icol ∈ task.plans := by
  refine List.mem_flatMap.mpr ⟨icol, List.mem_range.mpr icolBound, ?_⟩
  rw [if_pos string]
  exact List.mem_cons_self

theorem plan_mem_chars
    {icol : Nat}
    (icolBound : icol < task.schema.length)
    (string : task.IsString icol) :
    task.chars_plan icol ∈ task.plans := by
  refine List.mem_flatMap.mpr ⟨icol, List.mem_range.mpr icolBound, ?_⟩
  rw [if_pos string]
  simp

theorem total_data (icol rank : Nat) :
    (task.data_plan icol).total task.layout rank =
      ((List.range task.layout.group_size).map fun index =>
        task.row_count (task.layout.member rank index) (task.layout.local_idx rank)).sum :=
  rfl

theorem total_sizes (icol rank : Nat) :
    (task.sizes_plan icol).total task.layout rank =
      (task.data_plan icol).total task.layout rank := rfl

/-- The elements of a fixed-width column have the width of its type. -/
theorem length_of_mem_elements
    {column : Column}
    (fixed : column.type.id ≠ .STRING)
    {element : List Byte}
    (member : element ∈ column.elements) :
    element.length = column.type.id.size_of := by
  obtain ⟨row, _, rfl⟩ := List.mem_map.mp member
  rw [if_neg fixed]
  exact length_readRange _ _ _

theorem mem_gathered
    {α : Type}
    {values : Nat → List α}
    {rank : Nat}
    (rankBound : rank < n)
    {value : α}
    (member : value ∈ task.gathered values rank) :
    ∃ source, source < n ∧ value ∈ values source := by
  obtain ⟨index, range, inPart⟩ := List.mem_flatMap.mp member
  exact ⟨task.layout.member rank index,
    task.layout.member_lt rankBound (List.mem_range.mp range),
    List.mem_of_mem_drop (List.mem_of_mem_take inPart)⟩

/-- So have the elements that a rank gets. -/
theorem length_of_mem_gathered
    {rank icol : Nat}
    (rankBound : rank < n)
    (fixed : ¬ task.IsString icol)
    {element : List Byte}
    (member : element ∈ task.gathered_elements icol rank) :
    element.length = (task.column_type icol).id.size_of := by
  obtain ⟨source, sourceBound, inColumn⟩ := task.mem_gathered rankBound member
  have type := task.type_column sourceBound icol
  rw [← type]
  exact length_of_mem_elements (type ▸ fixed) inColumn

theorem length_of_mem_gathered_head
    {rank icol : Nat}
    (rankBound : rank < n)
    {element : List Byte}
    (member : element ∈ task.gathered_head_elements icol rank) :
    element.length = (task.column_type icol).id.size_of := by
  obtain ⟨source, sourceBound, inColumn⟩ := task.mem_gathered rankBound member
  rw [← task.type_column sourceBound icol]
  exact Column.length_of_mem_head_elements inColumn

theorem offset_communicated
    (gpu : Gpu)
    {rank icol : Nat}
    (rankBound : rank < n)
    (icolBound : icol < task.schema.length) :
    ((task.communicated gpu rank).column icol).offset = 0 := by
  rw [task.column_communicated gpu rankBound icolBound]
  unfold AllToAllCommunicator.communicated_column
  split <;> rfl

theorem null_mask_communicated
    (gpu : Gpu)
    {rank icol : Nat}
    (rankBound : rank < n)
    (icolBound : icol < task.schema.length) :
    ((task.communicated gpu rank).column icol).null_mask = none := by
  rw [task.column_communicated gpu rankBound icolBound]
  unfold AllToAllCommunicator.communicated_column
  split <;> rfl

/-- Concatenating the gathered parts. -/
theorem flatten_gathered
    (values : Nat → List (List Byte))
    (rank : Nat) :
    (task.gathered values rank).flatten =
      ((List.range task.layout.group_size).map fun index =>
        (task.part (values (task.layout.member rank index))
          (task.layout.member rank index) (task.layout.local_idx rank)).flatten).flatten := by
  rw [gathered, List.flatMap_def, List.flatten_flatten, List.map_map]
  rfl

variable {task}

/-- A plan is for a fixed-width column or for one of the two buffers of a string
column. -/
theorem mem_plans
    {plan : GroupPlan}
    (member : plan ∈ task.plans) :
    ∃ icol, icol < task.schema.length ∧
      (¬ task.IsString icol ∧ plan = task.data_plan icol ∨
        task.IsString icol ∧ (plan = task.sizes_plan icol ∨ plan = task.chars_plan icol)) := by
  obtain ⟨icol, range, column⟩ := List.mem_flatMap.mp member
  refine ⟨icol, List.mem_range.mp range, ?_⟩
  split at column
  · rename_i string
    exact .inr ⟨string, by simpa using column⟩
  · rename_i fixed
    exact .inl ⟨fixed, by simpa using column⟩

/-- A part of a column lies inside its elements. -/
theorem Sound.length_part
    (sound : task.Sound)
    {rank icol index : Nat}
    (rankBound : rank < n)
    (icolBound : icol < task.schema.length)
    (indexBound : index < task.layout.group_size) :
    (task.part ((task.table rank).column icol).head_elements rank index).length =
      task.row_count rank index := by
  have inside := sound.part_inside_column rankBound icolBound indexBound
  rw [part, List.length_take, List.length_drop, Column.length_head_elements]
  omega

namespace Sound

variable (sound : task.Sound)
include sound

theorem total_data_eq
    (icol : Nat)
    {rank : Nat}
    (rankBound : rank < n) :
    ((task.data_plan icol).total task.layout rank : Int) = task.received_rows rank := by
  rw [← (sound.placed_data icol).getLastD_recv_offsets rankBound,
    ← task.getLastD_recv_offsets rank]
  rfl

theorem received_rows_nonneg
    {rank : Nat}
    (rankBound : rank < n) :
    0 ≤ task.received_rows rank := by
  rw [← sound.total_data_eq 0 rankBound]
  exact Int.natCast_nonneg _

/-- The bytes of the elements of a fixed-width column for one member. -/
theorem piece_data
    {rank icol index : Nat}
    (rankBound : rank < n)
    (icolBound : icol < task.schema.length)
    (indexBound : index < task.layout.group_size) :
    (task.data_plan icol).piece task.layout rank index =
      (task.part ((task.table (task.layout.member rank index)).column icol).head_elements
        (task.layout.member rank index) (task.layout.local_idx rank)).flatten := by
  have sourceBound := task.layout.member_lt rankBound indexBound
  have ownBound := task.layout.local_idx_lt rank
  have inside := sound.part_inside_column sourceBound icolBound ownBound
  rw [GroupPlan.piece]
  simp only [data_plan, sound.getD_offsets_eq sourceBound (Nat.le_of_lt ownBound),
    sound.countAt_eq sourceBound ownBound, ← Nat.cast_mul, Int.toNat_natCast]
  rw [part, Column.head_elements, task.type_column sourceBound icol]
  exact readRange_eq_flatten_itemsOf inside

/-- A rank gets as many elements of a column as it receives rows. -/
theorem length_gathered_head_elements
    {rank icol : Nat}
    (rankBound : rank < n)
    (icolBound : icol < task.schema.length) :
    ((task.gathered_head_elements icol rank).length : Int) = task.received_rows rank :=
  sound.length_gathered rankBound fun source sourceBound => by
    rw [Column.length_head_elements, sound.size_column sourceBound icolBound]

theorem communicated_rows_eq
    {rank : Nat}
    (rankBound : rank < n)
    (small : task.received_rows rank < 2 ^ 31) :
    (task.created rank).communicated_rows = task.received_rows rank := by
  rw [task.communicated_rows_created rank,
    toSizeType_eq (sound.received_rows_nonneg rankBound) small]

/-- A rank gets as many elements of a column as it receives rows. -/
theorem length_gathered_elements
    {rank icol : Nat}
    (rankBound : rank < n)
    (icolBound : icol < task.schema.length) :
    ((task.gathered_elements icol rank).length : Int) = task.received_rows rank :=
  sound.length_gathered rankBound fun source sourceBound => by
    rw [Column.length_elements, sound.size_column sourceBound icolBound]

/-- The partitions of a fixed-width column for a rank. -/
theorem flatten_pieces_data
    {rank icol : Nat}
    (rankBound : rank < n)
    (icolBound : icol < task.schema.length) :
    ((task.data_plan icol).pieces task.layout rank).flatten =
      (task.gathered_head_elements icol rank).flatten := by
  rw [gathered_head_elements, flatten_gathered, GroupPlan.pieces]
  congr 1
  apply List.map_congr_left
  intro index range
  exact sound.piece_data rankBound icolBound (List.mem_range.mp range)

/-- The data buffer of a fixed-width column of the communicated table. -/
theorem head_communicated
    (gpu : Gpu)
    (supported : task.Supported)
    {rank icol : Nat}
    (rankBound : rank < n)
    (icolBound : icol < task.schema.length)
    (fixed : ¬ task.IsString icol)
    (small : task.received_rows rank < 2 ^ 31) :
    ((task.communicated gpu rank).column icol).head =
      (task.gathered_head_elements icol rank).flatten := by
  have type : ((task.created rank).input_table.column icol).type =
      task.column_type icol := task.type_column rankBound icol
  have content := task.contents_memory gpu supported
    (task.plan_mem_data icolBound fixed) (sound.placed_data icol) rankBound
  rw [task.column_communicated gpu rankBound icolBound,
    AllToAllCommunicator.communicated_column, if_pos (type ▸ fixed),
    sound.communicated_rows_eq rankBound small,
    ← sound.total_data_eq icol rankBound, type, Int.toNat_natCast,
    ← sound.flatten_pieces_data rankBound icolBound]
  exact content

/-- A fixed-width column of the communicated table holds the elements at the
beginning of the buffers of the members. -/
theorem elements_data
    (gpu : Gpu)
    (supported : task.Supported)
    {rank icol : Nat}
    (rankBound : rank < n)
    (icolBound : icol < task.schema.length)
    (fixed : ¬ task.IsString icol)
    (small : task.received_rows rank < 2 ^ 31) :
    ((task.communicated gpu rank).column icol).elements =
      task.gathered_head_elements icol rank := by
  have type := task.type_communicated gpu rankBound icolBound
  have count : (task.received_rows rank).toNat =
      (task.gathered_head_elements icol rank).length := by
    have length := sound.length_gathered_head_elements rankBound icolBound
    omega
  rw [Column.elements_fixed (task.offset_communicated gpu rankBound icolBound)
      (type ▸ fixed), Column.head_elements, type,
    sound.head_communicated gpu supported rankBound icolBound fixed small,
    task.size_communicated gpu rankBound icolBound,
    toSizeType_eq (sound.received_rows_nonneg rankBound) small, count]
  exact itemsOf_flatten fun element => task.length_of_mem_gathered_head rankBound

/-- A part of a table has as many rows and characters as `cudf::size_type` can
count. -/
theorem narrow : task.Narrow := by
  intro plan member _ rank rankBound index inIndices
  have indexBound := (task.layout.mem_indices.mp inIndices).1
  have rows : countAt (task.offsets rank) index < 2 ^ 31 := by
    have inside := sound.part_inside rankBound indexBound
    have small := (sound.sound_tables rank rankBound).num_rows_lt
    rw [sound.countAt_eq rankBound indexBound]
    omega
  have nonnegative := sound.countAt_nonneg rankBound indexBound
  obtain ⟨icol, icolBound, ⟨_, rfl⟩ | ⟨string, rfl | rfl⟩⟩ := mem_plans member
  · exact ⟨nonnegative, rows⟩
  · exact ⟨nonnegative, rows⟩
  · have type : ((task.table rank).column icol).type.id = .STRING := by
      rw [task.type_column rankBound icol]
      exact string
    have column := sound.sound_column rankBound icolBound
    have inside := sound.part_inside_column rankBound icolBound indexBound
    have first := column.getD_offsets_bounds type
      (Nat.le_trans (Nat.le_add_right (task.first_row rank index) (task.row_count rank index)) inside)
    have last := column.getD_offsets_bounds type inside
    have chars := column.chars_lt type
    refine ⟨sound.countAt_string_send_offsets_nonneg rankBound icolBound string indexBound, ?_⟩
    change countAt (task.string_send_offsets icol rank) index < 2 ^ 31
    rw [sound.countAt_string_send_offsets rankBound indexBound]
    omega

end Sound

namespace Whole

variable (whole : task.Whole)
include whole

theorem offset_column
    {rank icol : Nat}
    (rankBound : rank < n)
    (icolBound : icol < task.schema.length) :
    ((task.table rank).column icol).offset = 0 :=
  whole.unsliced rank rankBound _ (Sound.column_mem rankBound icolBound)

/-- The elements of columns that are not sliced are at the beginning of their
buffers. -/
theorem gathered_head_elements_eq
    {rank icol : Nat}
    (rankBound : rank < n)
    (icolBound : icol < task.schema.length)
    (fixed : ¬ task.IsString icol) :
    task.gathered_head_elements icol rank = task.gathered_elements icol rank := by
  unfold gathered_head_elements gathered_elements gathered
  apply List.flatMap_congr
  intro index range
  have sourceBound := task.layout.member_lt rankBound (List.mem_range.mp range)
  have elements := Column.elements_fixed (whole.offset_column sourceBound icolBound)
    (by rw [task.type_column sourceBound icol]; exact fixed)
  simp only [elements]

/-- The data buffer of a fixed-width column of the communicated table. -/
theorem head_communicated_eq
    (gpu : Gpu)
    (supported : task.Supported)
    {rank icol : Nat}
    (rankBound : rank < n)
    (icolBound : icol < task.schema.length)
    (fixed : ¬ task.IsString icol)
    (small : task.received_rows rank < 2 ^ 31) :
    ((task.communicated gpu rank).column icol).head =
      (task.gathered_elements icol rank).flatten := by
  rw [whole.head_communicated gpu supported rankBound icolBound fixed small,
    whole.gathered_head_elements_eq rankBound icolBound fixed]

/-- A fixed-width column of the communicated table holds the gathered
elements. -/
theorem elements_fixed_width
    (gpu : Gpu)
    (supported : task.Supported)
    {rank icol : Nat}
    (rankBound : rank < n)
    (icolBound : icol < task.schema.length)
    (fixed : ¬ task.IsString icol)
    (small : task.received_rows rank < 2 ^ 31) :
    ((task.communicated gpu rank).column icol).elements =
      task.gathered_elements icol rank := by
  rw [whole.elements_data gpu supported rankBound icolBound fixed small,
    whole.gathered_head_elements_eq rankBound icolBound fixed]

end Whole

namespace WellFormed

variable (wellFormed : task.WellFormed)
include wellFormed

theorem whole : task.Whole where
  toSound := wellFormed.toSound
  unsliced := fun rank rankBound column member =>
    ((wellFormed.tables rank rankBound).columns column member).unsliced

end WellFormed

end Redistribution

end DistributedJoin
