import DistributedJoin.Cudf.Elements
import DistributedJoin.Relational.Parts

/-!
# Hash partitioning

`cudf::hash_partition` sorts the rows of a table by the hash values of their keys,
taken modulo the number of partitions. It is a parameter of the development; what is
asked of it is asked of the calls that are made.
-/

namespace DistributedJoin

/-- The hash functions in use. -/
inductive HashId
  | HASH_IDENTITY
  | HASH_MURMUR3
  deriving DecidableEq, Repr

/-- The key of a row: its content in the key columns. -/
def keyOf (on_columns : List Nat) (row : Row) : List Cell :=
  on_columns.map fun icol => row.getD icol none

/-- `cudf::hash_partition`: for a table, key columns, a number of partitions, a hash
function and a seed, the sorted table and the first row of every partition. -/
abbrev HashPartition := Table → List Nat → Nat → HashId → Nat → Table × List Int

/-- A table has been sorted into partitions. -/
structure Partitioned
    (hash : List Cell → Nat)
    (on_columns : List Nat)
    (num_partitions : Nat)
    (input output : Table)
    (offsets : List Int) : Prop where
  sound : output.Sound
  unsliced : ∀ column ∈ output, column.offset = 0
  schema : output.schema = input.schema
  /-- Rows are moved as a whole, with their nulls. -/
  rows : output.rows.Perm input.rows
  offsets_length : offsets.length = num_partitions
  offsets_first : offsets.headD 0 = 0
  offsets_sorted : offsets.Pairwise (· ≤ ·)
  offsets_inside : ∀ offset ∈ offsets, 0 ≤ offset ∧ offset ≤ output.num_rows
  /-- A partition holds the rows whose hash value it stands for. -/
  placed : ∀ index, index < num_partitions → ∀ row ∈ Relational.slice output.rows
      ((offsets ++ [output.num_rows]).getD index 0).toNat
      ((offsets ++ [output.num_rows]).getD (index + 1) 0).toNat,
    hash (keyOf on_columns row) % num_partitions = index

/-- All calls on tables that cuDF creates sort them into partitions. -/
def HashPartition.Partitions
    (hash_partition : HashPartition)
    (hash : HashId → Nat → List Cell → Nat) : Prop :=
  ∀ input on_columns num_partitions hash_function hash_seed, input.Sound → 0 < num_partitions →
    Partitioned (hash hash_function hash_seed) on_columns num_partitions input
      (hash_partition input on_columns num_partitions hash_function hash_seed).1
      (hash_partition input on_columns num_partitions hash_function hash_seed).2

/-- Where a partition starts. After the last one is the end of the table. -/
def partition_start (output : Table) (offsets : List Int) (index : Nat) : Nat :=
  ((offsets ++ [output.num_rows]).getD index 0).toNat

namespace Partitioned

variable {hash : List Cell → Nat} {on_columns : List Nat} {num_partitions : Nat}
  {input output : Table} {offsets : List Int}
  (partitioned : Partitioned hash on_columns num_partitions input output offsets)
include partitioned

theorem length_append : (offsets ++ [output.num_rows]).length = num_partitions + 1 := by
  rw [List.length_append, partitioned.offsets_length, List.length_singleton]

/-- Partitioning keeps the number of rows. -/
theorem num_rows_eq (sound : input.Sound) : output.num_rows = input.num_rows := by
  have length := partitioned.rows.length_eq
  rw [Table.length_rows, Table.length_rows] at length
  have before := sound.num_rows_nonneg
  have after := partitioned.sound.num_rows_nonneg
  omega

theorem sorted_append : (offsets ++ [output.num_rows]).Pairwise (· ≤ ·) := by
  refine List.pairwise_append.mpr ⟨partitioned.offsets_sorted, List.pairwise_singleton _ _,
    fun offset member last lastMember => ?_⟩
  obtain rfl := List.mem_singleton.mp lastMember
  exact (partitioned.offsets_inside offset member).2

theorem append_inside {offset : Int} (member : offset ∈ offsets ++ [output.num_rows]) :
    0 ≤ offset ∧ offset ≤ output.num_rows := by
  rcases List.mem_append.mp member with before | last
  · exact partitioned.offsets_inside offset before
  · obtain rfl := List.mem_singleton.mp last
    exact ⟨partitioned.sound.num_rows_nonneg, Int.le_refl _⟩

theorem partition_start_le {index : Nat} (indexBound : index < num_partitions) :
    partition_start output offsets index ≤ partition_start output offsets (index + 1) := by
  have length := partitioned.length_append
  have ordered : (offsets ++ [output.num_rows]).getD index 0 ≤
      (offsets ++ [output.num_rows]).getD (index + 1) 0 := by
    rw [List.getD_eq_getElem _ _ (by omega), List.getD_eq_getElem _ _ (by omega)]
    exact List.pairwise_iff_getElem.mp partitioned.sorted_append _ _ _ _ (Nat.lt_succ_self index)
  exact Int.toNat_le_toNat ordered

theorem partition_start_zero (positive : 0 < num_partitions) :
    partition_start output offsets 0 = 0 := by
  have length := partitioned.offsets_length
  have first := partitioned.offsets_first
  cases offsets with
  | nil =>
      rw [List.length_nil] at length
      omega
  | cons offset rest =>
      obtain rfl : offset = 0 := first
      rfl

theorem partition_start_last :
    partition_start output offsets num_partitions = output.rows.length := by
  rw [partition_start, List.getD_append_right _ _ _ _ partitioned.offsets_length.le,
    partitioned.offsets_length, Nat.sub_self, List.getD_cons_zero, Table.length_rows]

/-- The rows of a partition are those whose hash value it stands for. -/
theorem slice_rows {index : Nat} (indexBound : index < num_partitions) :
    Relational.slice output.rows (partition_start output offsets index)
        (partition_start output offsets (index + 1)) =
      output.rows.filter fun row => hash (keyOf on_columns row) % num_partitions = index := by
  have ordered : ∀ index, index < num_partitions →
      partition_start output offsets index ≤ partition_start output offsets (index + 1) :=
    fun _ => partitioned.partition_start_le
  have whole := Relational.flatMap_slice output.rows ordered
  rw [partitioned.partition_start_zero (Nat.zero_lt_of_lt indexBound),
    partitioned.partition_start_last, Relational.slice_all] at whole
  have bucket := Relational.filter_flatMap_parts partitioned.placed indexBound
  exact bucket.symm.trans (congrArg (List.filter _) whole)

end Partitioned

/-- A table has been cut into as many partitions as asked for. -/
structure Cut
    (num_partitions : Nat)
    (input output : Table)
    (offsets : List Int) : Prop where
  schema : output.schema = input.schema
  sound : input.Sound → output.Sound
  offsets_length : offsets.length = num_partitions
  offsets_sorted : offsets.Pairwise (· ≤ ·)
  offsets_inside : input.Sound → ∀ offset ∈ offsets, 0 ≤ offset ∧ offset ≤ output.num_rows

/-- All calls return the offsets of all partitions. -/
def HashPartition.Cuts (hash_partition : HashPartition) : Prop :=
  ∀ input on_columns num_partitions hash_function hash_seed, 0 < num_partitions →
    Cut num_partitions input
      (hash_partition input on_columns num_partitions hash_function hash_seed).1
      (hash_partition input on_columns num_partitions hash_function hash_seed).2

namespace Table

variable {table : Table}

/-- A row of a table has the cells of its columns. -/
theorem getElem_rows {row : Nat} (rowBound : row < table.rows.length) :
    table.rows[row] = table.map fun column => column.cells.getD row none := by
  simp [rows, rowsOf]

/-- No row has a null. -/
def NonNull (table : Table) : Prop := ∀ row ∈ table.rows, none ∉ row

theorem NonNull.of_perm
    {other : Table}
    (non_null : table.NonNull)
    (rearranged : other.rows.Perm table.rows) :
    other.NonNull :=
  fun row member => non_null row (rearranged.mem_iff.mp member)

/-- Tables without null masks have no nulls. -/
theorem nonNull_of_masks
    (sizes : ∀ column ∈ table, column.size = table.num_rows)
    (masks : ∀ column ∈ table, column.null_mask = none) :
    table.NonNull := by
  intro row member null
  obtain ⟨index, range, rfl⟩ := List.mem_map.mp member
  rw [List.map_map] at null
  obtain ⟨column, columnMember, cell⟩ := List.mem_map.mp null
  have inside : index < (column.elements.map some).length := by
    rw [List.length_map, Column.length_elements, sizes column columnMember]
    exact List.mem_range.mp range
  rw [Function.comp_apply, Column.cells_eq (masks column columnMember),
    List.getD_eq_getElem _ _ inside, List.getElem_map] at cell
  contradiction

/-- A cell that is not null is what is stored. -/
theorem getD_stored_cell
    {column : Column}
    {row : Nat}
    (rowBound : row < column.size.toNat)
    (present : column.cells.getD row none ≠ none) :
    (column.elements.map some).getD row none = column.cells.getD row none := by
  have cell : column.cells.getD row none = column.cell row := by simp [Column.cells, rowBound]
  have valid : column.is_valid row = true := by
    by_contra invalid
    exact present (cell.trans (if_neg invalid))
  rw [cell]
  simp [Column.elements, Column.cell, valid, rowBound]

/-- A row is stored with the cells of its columns. -/
theorem getElem_stored_rows {row : Nat} (rowBound : row < table.stored_rows.length) :
    table.stored_rows[row] =
      table.map fun column => (column.elements.map some).getD row none := by
  simp [stored_rows, rowsOf]

/-- Keys without nulls are stored. -/
theorem map_keyOf_stored_rows
    {on_columns : List Nat}
    (sizes : ∀ column ∈ table, column.size = table.num_rows)
    (non_null : ∀ row ∈ table.rows, none ∉ keyOf on_columns row) :
    table.stored_rows.map (keyOf on_columns) = table.rows.map (keyOf on_columns) := by
  apply List.ext_getElem
  · simp
  · intro row rowBound otherBound
    rw [List.length_map] at rowBound otherBound
    rw [List.getElem_map, List.getElem_map]
    have present := non_null _ (List.getElem_mem otherBound)
    rw [getElem_rows otherBound] at present ⊢
    rw [getElem_stored_rows rowBound]
    apply List.map_congr_left
    intro icol member
    rcases Nat.lt_or_ge icol table.length with inside | outside
    · have here : row < (table[icol]).size.toNat := by
        rw [sizes _ (List.getElem_mem inside)]
        simpa using otherBound
      rw [List.getD_eq_getElem _ _ (by simpa using inside),
        List.getD_eq_getElem _ _ (by simpa using inside), List.getElem_map, List.getElem_map]
      refine getD_stored_cell here fun null => present ?_
      refine List.mem_map.mpr ⟨icol, member, ?_⟩
      rw [List.getD_eq_getElem _ _ (by simpa using inside), List.getElem_map]
      exact null
    · rw [List.getD_eq_default _ _ (by simpa using outside),
        List.getD_eq_default _ _ (by simpa using outside)]

/-- If no row has a null, the rows are what is stored. -/
theorem NonNull.stored_rows_eq
    (non_null : table.NonNull)
    (sizes : ∀ column ∈ table, column.size = table.num_rows) :
    table.stored_rows = table.rows := by
  apply List.ext_getElem
  · simp
  · intro row rowBound otherBound
    have present := non_null _ (List.getElem_mem otherBound)
    rw [getElem_rows otherBound] at present ⊢
    rw [getElem_stored_rows rowBound]
    apply List.map_congr_left
    intro column member
    have here : row < column.size.toNat := by
      rw [sizes column member]
      simpa using otherBound
    exact getD_stored_cell here fun null => present (List.mem_map.mpr ⟨column, member, null⟩)

end Table

end DistributedJoin
