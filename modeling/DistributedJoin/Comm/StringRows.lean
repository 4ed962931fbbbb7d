import DistributedJoin.Comm.Rows

/-!
# Communicated string columns

The sizes and the characters of strings travel separately. The sizes to send are
calculated for the rows that are sent, starting with the first of them, but read
by the row numbers of the whole table. The two agree only on a rank whose rows
to send start at the beginning of the table, or that sends nothing.
-/

namespace DistributedJoin

open Device Spmd

namespace Redistribution

variable {n : Nat} (task : Redistribution n)

/-- The rows to send start with the first row of the table, or there are none. -/
def Aligned (rank : Nat) : Prop :=
  (task.offsets rank).headD 0 = 0 ∨
    (task.offsets rank).getLastD 0 = (task.offsets rank).headD 0

instance (rank : Nat) : Decidable (task.Aligned rank) :=
  inferInstanceAs (Decidable (_ ∨ _))

/-- The sizes of strings that a rank reads for a member. They are read by the row
numbers of the whole table; beyond the sizes to send, nothing is promised. -/
def sizes_read (icol rank index : Nat) : List Int :=
  (List.range (task.row_count rank index)).map fun row =>
    (task.string_sizes_to_send icol rank).getD (task.first_row rank index + row) 0

/-- The sizes of strings that a rank receives. -/
def received_sizes (icol rank : Nat) : List Int :=
  (List.range task.layout.group_size).flatMap fun index =>
    task.sizes_read icol (task.layout.member rank index) (task.layout.local_idx rank)

variable {task}

/-- A rank gets the size of every row that it receives. -/
theorem length_received_sizes (icol rank : Nat) :
    (task.received_sizes icol rank).length = (task.data_plan icol).total task.layout rank := by
  rw [received_sizes, List.length_flatMap, task.total_data]
  simp [sizes_read]

theorem mem_received_sizes
    {icol rank : Nat}
    (rankBound : rank < n)
    {size : Int}
    (member : size ∈ task.received_sizes icol rank) :
    size = 0 ∨ ∃ source, source < n ∧ size ∈ task.string_sizes_to_send icol source := by
  obtain ⟨index, range, inPart⟩ := List.mem_flatMap.mp member
  obtain ⟨row, _, rfl⟩ := List.mem_map.mp inPart
  have sourceBound := task.layout.member_lt rankBound (List.mem_range.mp range)
  by_cases inside : task.first_row (task.layout.member rank index) (task.layout.local_idx rank) +
      row < (task.string_sizes_to_send icol (task.layout.member rank index)).length
  · rw [List.getD_eq_getElem _ _ inside]
    exact .inr ⟨_, sourceBound, List.getElem_mem inside⟩
  · rw [List.getD_eq_default _ _ (Nat.not_lt.mp inside)]
    exact .inl rfl

/-- Sizes are calculated in the width of `cudf::size_type`. -/
theorem toSizeType_of_mem_received_sizes
    {icol rank : Nat}
    (rankBound : rank < n)
    {size : Int}
    (member : size ∈ task.received_sizes icol rank) :
    toSizeType size = size := by
  rcases mem_received_sizes rankBound member with rfl | ⟨source, _, sent⟩
  · rfl
  · obtain ⟨row, _, rfl⟩ := List.mem_map.mp sent
    exact Int.bmod_bmod

namespace Sound

variable (sound : task.Sound)
include sound

theorem headD_offsets
    {rank : Nat}
    (rankBound : rank < n) :
    (task.offsets rank).headD 0 = task.first_row rank 0 := by
  rw [← sound.getD_offsets_eq rankBound (Nat.zero_le _)]
  cases task.offsets rank <;> rfl

theorem getLastD_offsets
    {rank : Nat}
    (rankBound : rank < n) :
    (task.offsets rank).getLastD 0 = task.first_row rank task.layout.group_size := by
  rw [← sound.getD_offsets_eq rankBound (Nat.le_refl _),
    List.getLastD_eq_getLast?, List.getLast?_eq_getElem?,
    sound.offsets_length rank rankBound, Nat.add_sub_cancel,
    List.getD_eq_getElem?_getD]

theorem first_row_le
    {rank first second : Nat}
    (rankBound : rank < n)
    (ordered : first ≤ second)
    (inside : second ≤ task.layout.group_size) :
    task.first_row rank first ≤ task.first_row rank second :=
  Int.toNat_le_toNat (sound.getD_offsets_le rankBound ordered inside)

theorem first_row_le_num_rows
    {rank index : Nat}
    (rankBound : rank < n)
    (inside : index ≤ task.layout.group_size) :
    (task.first_row rank index : Int) ≤ (task.table rank).num_rows := by
  rw [← sound.getD_offsets_eq rankBound inside]
  exact (sound.getD_offsets_inside rankBound inside).2

/-- The sizes of the strings of a column for one member. -/
theorem piece_sizes
    {rank icol index : Nat}
    (rankBound : rank < n)
    (indexBound : index < task.layout.group_size) :
    (task.sizes_plan icol).piece task.layout rank index =
      encodeWords 4 (task.sizes_read icol (task.layout.member rank index)
        (task.layout.local_idx rank)) := by
  have sourceBound := task.layout.member_lt rankBound indexBound
  have ownBound := task.layout.local_idx_lt rank
  have width : (task.sizes_plan icol).item_size = 4 := rfl
  rw [GroupPlan.piece, width]
  simp only [sizes_plan, sound.getD_offsets_eq sourceBound (Nat.le_of_lt ownBound),
    sound.countAt_eq sourceBound ownBound, ← Nat.cast_mul, Int.toNat_natCast]
  exact readRange_encodeWords_range 4 _ _ _

/-- The sizes that a rank gets. -/
theorem pieces_sizes
    {rank : Nat}
    (icol : Nat)
    (rankBound : rank < n) :
    ((task.sizes_plan icol).pieces task.layout rank).flatten =
      encodeWords 4 (task.received_sizes icol rank) := by
  rw [received_sizes, encodeWords_flatMap, GroupPlan.pieces]
  congr 1
  apply List.map_congr_left
  intro index range
  exact sound.piece_sizes rankBound (List.mem_range.mp range)

/-- Sizes of strings are not negative. -/
theorem received_sizes_nonneg
    {rank icol : Nat}
    (rankBound : rank < n)
    (icolBound : icol < task.schema.length)
    (string : task.IsString icol)
    {size : Int}
    (member : size ∈ task.received_sizes icol rank) :
    0 ≤ size := by
  rcases mem_received_sizes rankBound member with rfl | ⟨source, sourceBound, sent⟩
  · exact Int.le_refl 0
  · obtain ⟨row, range, rfl⟩ := List.mem_map.mp sent
    have type := task.type_column sourceBound icol
    have column := sound.sound_column sourceBound icolBound
    have last := sound.first_row_le_num_rows sourceBound (Nat.le_refl task.layout.group_size)
    have rowBound := List.mem_range.mp range
    rw [sound.headD_offsets sourceBound, sound.getLastD_offsets sourceBound] at rowBound
    rw [sound.headD_offsets sourceBound, Int.toNat_natCast]
    rw [← sound.size_column sourceBound icolBound] at last
    have inside : task.first_row source 0 + row + 1 ≤
        ((task.table source).column icol).size.toNat := by omega
    have ordered := column.offsets_le (type ▸ string)
      (Nat.le_add_right (task.first_row source 0 + row) 1) inside
    have lower := (column.getD_offsets_bounds (type ▸ string) (Nat.le_of_succ_le inside)).1
    have upper := (column.getD_offsets_bounds (type ▸ string) inside).2
    have chars := column.chars_lt (type ▸ string)
    rw [toSizeType_eq (by omega) (by omega)]
    omega

/-- The offsets of a string column of the communicated table are rebuilt from the
received sizes. -/
theorem child_offsets_received
    (gpu : Gpu)
    (supported : task.Supported)
    {rank icol : Nat}
    (rankBound : rank < n)
    (icolBound : icol < task.schema.length)
    (string : task.IsString icol)
    (small : task.received_rows rank < 2 ^ 31) :
    ((task.communicated gpu rank).column icol).child_offsets =
      calculate_string_offsets_from_sizes (task.received_sizes icol rank) := by
  have type : ((task.created rank).input_table.column icol).type =
      task.column_type icol := task.type_column rankBound icol
  have content := task.contents_memory gpu supported
    (task.plan_mem_sizes icolBound string) (sound.placed_sizes icol) rankBound
  rw [sound.pieces_sizes icol rankBound, task.total_sizes] at content
  have rows := sound.total_data_eq icol rankBound
  have last : ((task.created rank).recv_offsets.getLastD 0) = task.received_rows rank :=
    task.getLastD_recv_offsets rank
  have decoded : decodeWords 4 (encodeWords 4 (task.received_sizes icol rank))
      (task.received_sizes icol rank).length = task.received_sizes icol rank :=
    decodeWords_encodeWords fun size member => toSizeType_of_mem_received_sizes rankBound member
  rw [task.column_communicated gpu rankBound icolBound,
    AllToAllCommunicator.communicated_column,
    if_neg (not_not.mpr (show _ = _ from type ▸ string)),
    sound.communicated_rows_eq rankBound small, last, ← rows, Int.toNat_natCast]
  conv_rhs => rw [← decoded, length_received_sizes icol rank, ← content]
  rfl

theorem total_chars_eq
    {rank icol : Nat}
    (rankBound : rank < n)
    (icolBound : icol < task.schema.length)
    (string : task.IsString icol) :
    ((task.chars_plan icol).total task.layout rank : Int) =
      task.received_chars icol rank := by
  rw [← (sound.placed_chars icolBound string).getLastD_recv_offsets rankBound,
    ← task.getLastD_string_recv_offsets icol rank]
  rfl

theorem received_chars_nonneg
    {rank icol : Nat}
    (rankBound : rank < n)
    (icolBound : icol < task.schema.length)
    (string : task.IsString icol) :
    0 ≤ task.received_chars icol rank := by
  rw [← sound.total_chars_eq rankBound icolBound string]
  exact Int.natCast_nonneg _

end Sound

namespace Whole

variable (whole : task.Whole)
include whole

/-- The sizes of the strings that a rank sends are those of all its parts. -/
theorem string_sizes_to_send_eq
    {rank icol : Nat}
    (rankBound : rank < n)
    (icolBound : icol < task.schema.length)
    (string : task.IsString icol) :
    task.string_sizes_to_send icol rank =
      sizesOf ((((task.table rank).column icol).elements.drop
        (task.first_row rank 0)).take
          (task.first_row rank task.layout.group_size - task.first_row rank 0)) := by
  have type := task.type_column rankBound icol
  have ordered := whole.first_row_le rankBound (Nat.zero_le _)
    (Nat.le_refl task.layout.group_size)
  have inside := whole.first_row_le_num_rows rankBound
    (Nat.le_refl task.layout.group_size)
  rw [string_sizes_to_send, whole.headD_offsets rankBound,
    whole.getLastD_offsets rankBound, string_sizes_eq
      (whole.sound_column rankBound icolBound) (whole.offset_column rankBound icolBound)
      (type ▸ string) (Int.natCast_nonneg _)
      (by exact_mod_cast ordered)
      (inside.trans_eq (whole.size_column rankBound icolBound).symm),
    Int.toNat_natCast, ← Int.toNat_sub]
  rfl

theorem length_string_sizes_to_send
    {rank icol : Nat}
    (rankBound : rank < n)
    (icolBound : icol < task.schema.length)
    (string : task.IsString icol) :
    (task.string_sizes_to_send icol rank).length =
      task.first_row rank task.layout.group_size - task.first_row rank 0 := by
  have inside := whole.first_row_le_num_rows rankBound
    (Nat.le_refl task.layout.group_size)
  rw [whole.string_sizes_to_send_eq rankBound icolBound string, sizesOf,
    List.length_map, List.length_take, List.length_drop, Column.length_elements,
    whole.size_column rankBound icolBound]
  omega

/-- On an aligned rank the sizes of a part are found by its row numbers. -/
theorem sizes_read_eq
    {rank icol index : Nat}
    (rankBound : rank < n)
    (icolBound : icol < task.schema.length)
    (string : task.IsString icol)
    (indexBound : index < task.layout.group_size)
    (aligned : task.Aligned rank) :
    task.sizes_read icol rank index =
      sizesOf (task.part ((task.table rank).column icol).elements rank index) := by
  have upper := whole.first_row_le rankBound indexBound
    (Nat.le_refl task.layout.group_size)
  have lower := whole.first_row_le rankBound (Nat.zero_le index)
    (Nat.le_of_lt indexBound)
  have next : task.first_row rank (index + 1) =
      task.first_row rank index + task.row_count rank index :=
    whole.first_row_succ rankBound indexBound
  unfold Aligned at aligned
  rw [whole.headD_offsets rankBound, whole.getLastD_offsets rankBound] at aligned
  rw [Nat.succ_eq_add_one, next] at upper
  rcases aligned with front | empty
  · have front : task.first_row rank 0 = 0 := by exact_mod_cast front
    have inside : task.first_row rank index + task.row_count rank index ≤
        (task.string_sizes_to_send icol rank).length := by
      rw [whole.length_string_sizes_to_send rankBound icolBound string, front]
      exact upper
    rw [sizes_read, map_range_getD inside,
      whole.string_sizes_to_send_eq rankBound icolBound string, front, sizesOf,
      ← List.map_drop, ← List.map_take, List.drop_zero, Nat.sub_zero, List.drop_take,
      List.take_take, Nat.min_eq_left (by omega)]
    rfl
  · have nothing : task.row_count rank index = 0 := by
      have back : task.first_row rank task.layout.group_size = task.first_row rank 0 := by
        exact_mod_cast empty
      omega
    rw [sizes_read, part, nothing, List.take_zero]
    rfl

/-- If all ranks of its group are aligned, a rank gets the sizes of the strings. -/
theorem received_sizes_eq
    {rank icol : Nat}
    (rankBound : rank < n)
    (icolBound : icol < task.schema.length)
    (string : task.IsString icol)
    (aligned : ∀ source, source < n → task.Aligned source) :
    task.received_sizes icol rank = sizesOf (task.gathered_elements icol rank) := by
  rw [gathered_elements, gathered, sizesOf, List.map_flatMap]
  apply List.flatMap_congr
  intro index range
  have sourceBound := task.layout.member_lt rankBound (List.mem_range.mp range)
  exact whole.sizes_read_eq sourceBound icolBound string (task.layout.local_idx_lt rank)
    (aligned _ sourceBound)

/-- The characters of a column for one member. -/
theorem piece_chars
    {rank icol index : Nat}
    (rankBound : rank < n)
    (icolBound : icol < task.schema.length)
    (string : task.IsString icol)
    (indexBound : index < task.layout.group_size) :
    (task.chars_plan icol).piece task.layout rank index =
      (task.part ((task.table (task.layout.member rank index)).column icol).elements
        (task.layout.member rank index) (task.layout.local_idx rank)).flatten := by
  have sourceBound := task.layout.member_lt rankBound indexBound
  have ownBound := task.layout.local_idx_lt rank
  have type := task.type_column sourceBound icol
  have range := (whole.sound_column sourceBound icolBound).readRange_string
    (whole.offset_column sourceBound icolBound) (type ▸ string) (whole.part_inside_column sourceBound icolBound ownBound)
  have width : ((task.chars_plan icol).item_size : Int) = 1 := rfl
  rw [GroupPlan.piece, width, mul_one, mul_one]
  simp only [chars_plan,
    whole.getD_string_send_offsets sourceBound (Nat.le_of_lt ownBound),
    whole.countAt_string_send_offsets sourceBound ownBound]
  exact range

/-- The characters that a rank gets. -/
theorem pieces_chars
    {rank icol : Nat}
    (rankBound : rank < n)
    (icolBound : icol < task.schema.length)
    (string : task.IsString icol) :
    ((task.chars_plan icol).pieces task.layout rank).flatten =
      (task.gathered_elements icol rank).flatten := by
  rw [gathered_elements, flatten_gathered, GroupPlan.pieces]
  congr 1
  apply List.map_congr_left
  intro index range
  exact whole.piece_chars rankBound icolBound string (List.mem_range.mp range)

/-- A rank gets as many characters as it receives. -/
theorem length_flatten_gathered
    {rank icol : Nat}
    (rankBound : rank < n)
    (icolBound : icol < task.schema.length)
    (string : task.IsString icol) :
    ((task.gathered_elements icol rank).flatten.length : Int) =
      task.received_chars icol rank := by
  have width : (task.chars_plan icol).item_size = 1 := rfl
  rw [← whole.pieces_chars rankBound icolBound string,
    GroupPlan.length_flatten_pieces, width, Nat.mul_one,
    whole.total_chars_eq rankBound icolBound string]

/-- Every string is short enough for its size to be stored. -/
theorem length_lt_of_mem_gathered
    {rank icol : Nat}
    (rankBound : rank < n)
    (icolBound : icol < task.schema.length)
    (string : task.IsString icol)
    {element : List Byte}
    (member : element ∈ task.gathered_elements icol rank) :
    element.length < 2 ^ 31 := by
  obtain ⟨source, sourceBound, inColumn⟩ := task.mem_gathered rankBound member
  have type := task.type_column sourceBound icol
  have column := whole.sound_column sourceBound icolBound
  obtain ⟨row, range, rfl⟩ := List.mem_map.mp inColumn
  have inside : row < ((task.table source).column icol).size.toNat := List.mem_range.mp range
  have length := column.length_element
    (whole.offset_column sourceBound icolBound) (type ▸ string) inside
  rw [List.getD_eq_getElem _ _ (by simpa using inside)] at length
  simp only [Column.elements, List.getElem_map, List.getElem_range] at length
  have lower := (column.getD_offsets_bounds (type ▸ string) (Nat.le_of_lt inside)).1
  have upper : ((task.table source).column icol).child_offsets.getD (row + 1) 0 ≤
      ((task.table source).column icol).child_chars.length :=
    (column.getD_offsets_bounds (type ▸ string) inside).2
  have chars := column.chars_lt (type ▸ string)
  omega

/-- The offsets of a string column of the communicated table are rebuilt from
the sizes of the gathered strings. -/
theorem child_offsets_communicated
    (gpu : Gpu)
    (supported : task.Supported)
    {rank icol : Nat}
    (rankBound : rank < n)
    (icolBound : icol < task.schema.length)
    (string : task.IsString icol)
    (aligned : ∀ source, source < n → task.Aligned source)
    (small : task.received_rows rank < 2 ^ 31) :
    ((task.communicated gpu rank).column icol).child_offsets =
      calculate_string_offsets_from_sizes
        (sizesOf (task.gathered_elements icol rank)) := by
  rw [whole.child_offsets_received gpu supported rankBound icolBound string small,
    whole.received_sizes_eq rankBound icolBound string aligned]

/-- The characters of a string column of the communicated table. -/
theorem child_chars_communicated
    (gpu : Gpu)
    (supported : task.Supported)
    {rank icol : Nat}
    (rankBound : rank < n)
    (icolBound : icol < task.schema.length)
    (string : task.IsString icol)
    (fewChars : task.received_chars icol rank < 2 ^ 31) :
    ((task.communicated gpu rank).column icol).child_chars =
      (task.gathered_elements icol rank).flatten := by
  have type : ((task.created rank).input_table.column icol).type =
      task.column_type icol := task.type_column rankBound icol
  have content := task.contents_memory gpu supported
    (task.plan_mem_chars icolBound string) (whole.placed_chars icolBound string)
    rankBound
  have chars := whole.total_chars_eq rankBound icolBound string
  have last : ((task.created rank).string_recv_offsets.getD icol []).getLastD 0 =
      task.received_chars icol rank := by
    rw [← task.getLastD_string_recv_offsets icol rank, ← task.getD_of_string
      (fun icol => task.string_recv_offsets icol rank) icolBound string]
    rfl
  have width : (task.chars_plan icol).item_size = 1 := rfl
  rw [width, Nat.mul_one, whole.pieces_chars rankBound icolBound string] at content
  rw [task.column_communicated gpu rankBound icolBound,
    AllToAllCommunicator.communicated_column,
    if_neg (not_not.mpr (show _ = _ from type ▸ string)), last,
    toSizeType_eq (by omega) fewChars, ← chars, Int.toNat_natCast]
  exact content

/-- A string column of the communicated table holds the gathered strings. -/
theorem elements_string
    (gpu : Gpu)
    (supported : task.Supported)
    {rank icol : Nat}
    (rankBound : rank < n)
    (icolBound : icol < task.schema.length)
    (string : task.IsString icol)
    (aligned : ∀ source, source < n → task.Aligned source)
    (small : task.received_rows rank < 2 ^ 31)
    (fewChars : task.received_chars icol rank < 2 ^ 31) :
    ((task.communicated gpu rank).column icol).elements =
      task.gathered_elements icol rank := by
  have type := task.type_communicated gpu rankBound icolBound
  have length := whole.length_flatten_gathered rankBound icolBound string
  refine elements_of_sizes (type ▸ string)
    (task.offset_communicated gpu rankBound icolBound) ?_
    (whole.child_offsets_communicated gpu supported rankBound icolBound string
      aligned small)
    (whole.child_chars_communicated gpu supported rankBound icolBound string
      fewChars) (by omega)
  rw [task.size_communicated gpu rankBound icolBound,
    toSizeType_eq (whole.received_rows_nonneg rankBound) small,
    whole.length_gathered_elements rankBound icolBound]

end Whole

end Redistribution

end DistributedJoin
