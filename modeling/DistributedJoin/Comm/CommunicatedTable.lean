import DistributedJoin.Comm.Allocation

/-!
# The communicated table

Every rank ends up with the rows that the members of its group have for it, with
all their columns, in the order of the members.
-/

namespace DistributedJoin

open Device Spmd

namespace Table

/-- The columns of a table by index. -/
theorem map_eq_map_range
    {α : Type}
    (table : Table)
    (value : Column → α) :
    table.map value =
      (List.range table.length).map fun icol => value (table.column icol) := by
  apply List.ext_getElem
  · simp
  · intro icol icolBound _
    rw [List.length_map] at icolBound
    simp only [List.getElem_map, List.getElem_range, column]
    rw [List.getD_eq_getElem _ _ icolBound]

theorem num_rows_eq_column
    {table : Table}
    (nonempty : 0 < table.length) :
    table.num_rows = (table.column 0).size := by
  cases table with
  | nil => simp at nonempty
  | cons column rest => rfl

theorem num_rows_eq_zero
    {table : Table}
    (empty : table.length = 0) :
    table.num_rows = 0 := by
  rw [List.eq_nil_of_length_eq_zero empty]
  rfl

end Table

namespace Redistribution

variable {n : Nat} (task : Redistribution n)

/-- What is stored for the rows that a rank gets from the members of its group. -/
def gathered_stored_rows (rank : Nat) : List Row :=
  task.gathered (fun source => (task.table source).stored_rows) rank

/-- The rows that a rank gets from the members of its group. -/
def gathered_rows (rank : Nat) : List Row :=
  task.gathered (fun source => (task.table source).rows) rank

theorem length_communicated
    (gpu : Gpu)
    {rank : Nat}
    (rankBound : rank < n) :
    (task.communicated gpu rank).length = task.schema.length := by
  rw [← task.schema_communicated gpu rankBound, Table.schema, List.length_map]

/-- The columns of the communicated table by index. -/
theorem mem_communicated
    (gpu : Gpu)
    {rank : Nat}
    (rankBound : rank < n)
    {column : Column}
    (member : column ∈ task.communicated gpu rank) :
    ∃ icol, icol < task.schema.length ∧ (task.communicated gpu rank).column icol = column := by
  obtain ⟨icol, icolBound, rfl⟩ := List.getElem_of_mem member
  refine ⟨icol, icolBound.trans_eq (task.length_communicated gpu rankBound), ?_⟩
  rw [Table.column, List.getD_eq_getElem _ _ icolBound]

theorem map_gathered
    {α β : Type}
    (change : α → β)
    (values : Nat → List α)
    (rank : Nat) :
    (task.gathered values rank).map change =
      task.gathered (fun source => (values source).map change) rank := by
  unfold gathered part
  rw [List.map_flatMap]
  apply List.flatMap_congr
  intro index _
  rw [List.map_take, List.map_drop]

variable {task}

/-- Without columns there are no rows to receive. -/
theorem Sound.received_rows_of_no_columns
    (sound : task.Sound)
    (empty : task.schema.length = 0)
    {rank : Nat}
    (rankBound : rank < n) :
    task.received_rows rank = 0 := by
  unfold received_rows Layout.incoming
  apply List.sum_eq_zero
  intro count member
  obtain ⟨index, range, rfl⟩ := List.mem_map.mp member
  have sourceBound := task.layout.member_lt rankBound (List.mem_range.mp range)
  have ownBound := task.layout.local_idx_lt rank
  have inside := sound.part_inside sourceBound ownBound
  rw [Table.num_rows_eq_zero ((task.length_table sourceBound).trans empty),
    Int.toNat_zero] at inside
  rw [sound.countAt_eq sourceBound ownBound]
  omega

namespace Sound

variable (sound : task.Sound)
include sound

/-- The number of rows of the communicated table. -/
theorem num_rows_communicated
    (gpu : Gpu)
    {rank : Nat}
    (rankBound : rank < n) :
    (task.communicated gpu rank).num_rows = toSizeType (task.received_rows rank) := by
  have length := task.length_communicated gpu rankBound
  rcases Nat.eq_zero_or_pos task.schema.length with empty | positive
  · rw [sound.received_rows_of_no_columns empty rankBound,
      Table.num_rows_eq_zero (length.trans empty)]
    rfl
  · rw [Table.num_rows_eq_column (positive.trans_eq length.symm),
      task.size_communicated gpu rankBound positive]

/-- A table that a rank could create does not have a negative number of rows. -/
theorem num_rows_communicated_nonneg
    (gpu : Gpu)
    {rank : Nat}
    (rankBound : rank < n)
    (created : ¬ task.Refused rank) :
    0 ≤ (task.communicated gpu rank).num_rows := by
  by_contra negative
  rw [sound.num_rows_communicated gpu rankBound] at negative
  rcases Nat.eq_zero_or_pos task.schema.length with empty | positive
  · rw [sound.received_rows_of_no_columns empty rankBound] at negative
    exact negative (by decide)
  · exact created ((task.refused_iff rankBound).mpr ⟨0, positive, .inl (by omega)⟩)

theorem sizes_communicated
    (gpu : Gpu)
    {rank : Nat}
    (rankBound : rank < n)
    {column : Column}
    (member : column ∈ task.communicated gpu rank) :
    column.size = (task.communicated gpu rank).num_rows := by
  obtain ⟨icol, icolBound, rfl⟩ := task.mem_communicated gpu rankBound member
  rw [task.size_communicated gpu rankBound icolBound, sound.num_rows_communicated gpu rankBound]

/-- The gathered parts of all columns are the gathered rows. -/
theorem rowsOf_gathered
    {rank : Nat}
    (rankBound : rank < n) :
    rowsOf (task.received_rows rank).toNat
        ((List.range task.schema.length).map fun icol =>
          (task.gathered_elements icol rank).map some) =
      task.gathered_stored_rows rank := by
  let cells : Nat → Nat → List Cell := fun source icol =>
    ((task.table source).column icol).elements.map some
  have columns : ∀ icol ∈ List.range task.schema.length,
      (task.gathered_elements icol rank).map some =
        (List.range task.layout.group_size).flatMap fun index =>
          task.part (cells (task.layout.member rank index) icol)
            (task.layout.member rank index) (task.layout.local_idx rank) := by
    intro icol _
    rw [gathered_elements, task.map_gathered]
    rfl
  have count : (task.received_rows rank).toNat =
      ((List.range task.layout.group_size).map fun index =>
        task.row_count (task.layout.member rank index) (task.layout.local_idx rank)).sum := by
    rw [← sound.total_data_eq 0 rankBound, Int.toNat_natCast, task.total_data]
  rw [List.map_congr_left columns, count, rowsOf_flatMap]
  · apply List.flatMap_congr
    intro index memberRange
    have sourceBound := task.layout.member_lt rankBound (List.mem_range.mp memberRange)
    have inside := sound.part_inside sourceBound (task.layout.local_idx_lt rank)
    have slice : rowsOf (task.row_count (task.layout.member rank index)
          (task.layout.local_idx rank))
        ((List.range task.schema.length).map fun icol =>
          task.part (cells (task.layout.member rank index) icol)
            (task.layout.member rank index) (task.layout.local_idx rank)) = _ :=
      rowsOf_slice (List.range task.schema.length) inside
    have rows : rowsOf (task.table (task.layout.member rank index)).num_rows.toNat
        ((List.range task.schema.length).map (cells (task.layout.member rank index))) =
          (task.table (task.layout.member rank index)).stored_rows := by
      rw [Table.stored_rows, Table.map_eq_map_range, task.length_table sourceBound]
    rw [rows] at slice
    exact slice
  · intro index memberRange icol range
    have sourceBound := task.layout.member_lt rankBound (List.mem_range.mp memberRange)
    have inside := sound.part_inside_column sourceBound (List.mem_range.mp range)
      (task.layout.local_idx_lt rank)
    rw [part, List.length_take, List.length_drop, List.length_map, Column.length_elements]
    omega

/-- If all columns hold the gathered elements, the communicated table has the
rows that are stored for the rank by the members of the group. -/
theorem rows_of_elements
    (gpu : Gpu)
    {rank : Nat}
    (rankBound : rank < n)
    (small : task.received_rows rank < 2 ^ 31)
    (elements : ∀ icol, icol < task.schema.length →
      ((task.communicated gpu rank).column icol).elements =
        task.gathered_elements icol rank) :
    (task.communicated gpu rank).rows = task.gathered_stored_rows rank := by
  rw [← sound.rowsOf_gathered rankBound, Table.rows, Table.map_eq_map_range,
    task.length_communicated gpu rankBound, sound.num_rows_communicated gpu rankBound,
    toSizeType_eq (sound.received_rows_nonneg rankBound) small]
  congr 1
  apply List.map_congr_left
  intro icol range
  have icolBound := List.mem_range.mp range
  rw [Column.cells_eq (task.null_mask_communicated gpu rankBound icolBound),
    elements icol icolBound]

/-- A rank gets as many rows as it receives. -/
theorem length_gathered_rows
    {rank : Nat}
    (rankBound : rank < n) :
    ((task.gathered_rows rank).length : Int) = task.received_rows rank :=
  sound.length_gathered rankBound fun _ _ => Table.length_rows _

/-- A rank that receives more rows than `cudf::size_type` can count does not get
them. -/
theorem rows_communicated_ne
    (gpu : Gpu)
    {rank : Nat}
    (rankBound : rank < n)
    (large : 2 ^ 31 ≤ task.received_rows rank) :
    (task.communicated gpu rank).rows ≠ task.gathered_rows rank := by
  intro same
  have length := congrArg List.length same
  have received := sound.length_gathered_rows rankBound
  have bound := toSizeType_lt (task.received_rows rank)
  rw [Table.length_rows, sound.num_rows_communicated gpu rankBound] at length
  omega

end Sound

namespace Whole

variable (whole : task.Whole)
include whole

/-- Every column of the communicated table holds the gathered elements. -/
theorem elements_communicated
    (gpu : Gpu)
    (supported : task.Supported)
    {rank icol : Nat}
    (rankBound : rank < n)
    (icolBound : icol < task.schema.length)
    (aligned : ∀ source, source < n → task.Aligned source)
    (fits : task.Fits rank) :
    ((task.communicated gpu rank).column icol).elements =
      task.gathered_elements icol rank := by
  by_cases string : task.IsString icol
  · exact whole.elements_string gpu supported rankBound icolBound string aligned
      fits.rows (fits.chars icol icolBound string)
  · exact whole.elements_fixed_width gpu supported rankBound icolBound string fits.rows

/-- The communicated table has the rows that are stored for the rank by the members
of the group. -/
theorem stored_rows_communicated
    (gpu : Gpu)
    (supported : task.Supported)
    {rank : Nat}
    (rankBound : rank < n)
    (aligned : ∀ source, source < n → task.Aligned source)
    (fits : task.Fits rank) :
    (task.communicated gpu rank).rows = task.gathered_stored_rows rank :=
  whole.rows_of_elements gpu rankBound fits.rows fun _ icolBound =>
    whole.elements_communicated gpu supported rankBound icolBound aligned fits

/-- The columns of the communicated table are well formed. -/
theorem wellFormed_column_communicated
    (gpu : Gpu)
    (supported : task.Supported)
    {rank icol : Nat}
    (rankBound : rank < n)
    (icolBound : icol < task.schema.length)
    (aligned : ∀ source, source < n → task.Aligned source)
    (fits : task.Fits rank) :
    ((task.communicated gpu rank).column icol).WellFormed := by
  have nonnegative := whole.received_rows_nonneg rankBound
  have type := task.type_communicated gpu rankBound icolBound
  have size : ((task.communicated gpu rank).column icol).size = task.received_rows rank :=
    (task.size_communicated gpu rankBound icolBound).trans
      (toSizeType_eq nonnegative fits.rows)
  have count := whole.length_gathered_elements rankBound icolBound
  have offsets : task.IsString icol →
      ((task.communicated gpu rank).column icol).child_offsets =
        calculate_string_offsets_from_sizes
          (sizesOf (task.gathered_elements icol rank)) := fun string =>
    whole.child_offsets_communicated gpu supported rankBound icolBound string
      aligned fits.rows
  have chars : task.IsString icol →
      ((task.communicated gpu rank).column icol).child_chars =
        (task.gathered_elements icol rank).flatten := fun string =>
    whole.child_chars_communicated gpu supported rankBound icolBound string
      (fits.chars icol icolBound string)
  have small : task.IsString icol →
      (task.gathered_elements icol rank).flatten.length < 2 ^ 31 := by
    intro string
    have length := whole.length_flatten_gathered rankBound icolBound string
    have few := fits.chars icol icolBound string
    omega
  have isString : ((task.communicated gpu rank).column icol).type.id = .STRING →
      task.IsString icol := fun string =>
    (congrArg DataType.id type).symm.trans string
  exact {
    size_nonneg := size ▸ nonnegative
    size_lt := size ▸ fits.rows
    unsliced := task.offset_communicated gpu rankBound icolBound
    non_null := task.null_mask_communicated gpu rankBound icolBound
    fixed := by
      intro fixed
      have notString : ¬ task.IsString icol := fun string =>
        fixed ((congrArg DataType.id type).trans string)
      rw [whole.head_communicated_eq gpu supported rankBound icolBound notString
          fits.rows, length_flatten_items fun element =>
            task.length_of_mem_gathered rankBound notString, size, type]
      congr 1
      omega
    offsets_length := by
      intro string
      rw [offsets (isString string), length_calculate_string_offsets, sizesOf,
        List.length_map, size]
      omega
    offsets_cover := by
      intro string
      rw [offsets (isString string), length_calculate_string_offsets, sizesOf,
        List.length_map, size, task.offset_communicated gpu rankBound icolBound]
      omega
    offsets_sorted := by
      intro string
      rw [offsets (isString string)]
      exact sorted_rebuilt_offsets (small (isString string))
    offsets_bound := by
      intro string
      rw [offsets (isString string), chars (isString string)]
      exact fun value => rebuilt_offsets_bound (small (isString string))
    chars_lt := by
      intro string
      rw [chars (isString string)]
      exact small (isString string) }

/-- The communicated table is well formed. -/
theorem wellFormed_communicated
    (gpu : Gpu)
    (supported : task.Supported)
    {rank : Nat}
    (rankBound : rank < n)
    (aligned : ∀ source, source < n → task.Aligned source)
    (fits : task.Fits rank) :
    (task.communicated gpu rank).WellFormed := by
  constructor
  · intro column member
    obtain ⟨icol, icolBound, rfl⟩ := task.mem_communicated gpu rankBound member
    exact whole.wellFormed_column_communicated gpu supported rankBound icolBound
      aligned fits
  · exact fun column member => whole.sizes_communicated gpu rankBound member

end Whole

namespace WellFormed

variable (wellFormed : task.WellFormed)
include wellFormed

theorem gathered_stored_rows_eq
    {rank : Nat}
    (rankBound : rank < n) :
    task.gathered_stored_rows rank = task.gathered_rows rank := by
  apply List.flatMap_congr
  intro index range
  have sourceBound := task.layout.member_lt rankBound (List.mem_range.mp range)
  simp only [Table.stored_rows_eq fun column member =>
    ((wellFormed.tables _ sourceBound).columns column member).non_null]

end WellFormed

end Redistribution

end DistributedJoin
