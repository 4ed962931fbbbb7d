import DistributedJoin.Device.Items

/-!
# Columns and tables

The parts of a cuDF column that the communication code reads: the element type,
the number of rows, the data buffer and its offset, the null mask, and for
strings the two child columns. Row counts and offsets have the width of
`cudf::size_type`.
-/

namespace DistributedJoin

open Device

/-- The element types that the communication code handles. -/
inductive TypeId
  | INT8 | INT16 | INT32 | INT64 | UINT8 | UINT16 | UINT32 | UINT64
  | FLOAT32 | FLOAT64 | BOOL8
  | TIMESTAMP_DAYS | TIMESTAMP_SECONDS | TIMESTAMP_MILLISECONDS
  | TIMESTAMP_MICROSECONDS | TIMESTAMP_NANOSECONDS
  | DURATION_DAYS | DURATION_SECONDS | DURATION_MILLISECONDS
  | DURATION_MICROSECONDS | DURATION_NANOSECONDS
  | DECIMAL32 | DECIMAL64
  | STRING
  deriving DecidableEq, Repr

namespace TypeId

/-- The size of an element in bytes. Strings have no fixed size. -/
def size_of : TypeId → Nat
  | INT8 | UINT8 | BOOL8 => 1
  | INT16 | UINT16 => 2
  | INT32 | UINT32 | FLOAT32 | TIMESTAMP_DAYS | DURATION_DAYS | DECIMAL32 => 4
  | INT64 | UINT64 | FLOAT64
  | TIMESTAMP_SECONDS | TIMESTAMP_MILLISECONDS | TIMESTAMP_MICROSECONDS
  | TIMESTAMP_NANOSECONDS | DURATION_SECONDS | DURATION_MILLISECONDS
  | DURATION_MICROSECONDS | DURATION_NANOSECONDS | DECIMAL64 => 8
  | STRING => 0

/-- Integer types, which cascaded compression handles directly. -/
def is_cascaded_supported : TypeId → Bool
  | INT8 | INT16 | INT32 | INT64 | UINT8 | UINT16 | UINT32 | UINT64 => true
  | _ => false

/-- Timestamps and durations, which are compressed as their representation. -/
def is_time_t : TypeId → Bool
  | TIMESTAMP_DAYS | TIMESTAMP_SECONDS | TIMESTAMP_MILLISECONDS
  | TIMESTAMP_MICROSECONDS | TIMESTAMP_NANOSECONDS
  | DURATION_DAYS | DURATION_SECONDS | DURATION_MILLISECONDS
  | DURATION_MICROSECONDS | DURATION_NANOSECONDS => true
  | _ => false

/-- Every fixed-width element takes up between one and eight bytes. -/
theorem size_of_bounds {id : TypeId} (fixed : id ≠ STRING) :
    0 < id.size_of ∧ id.size_of ≤ 8 := by
  cases id <;> first | exact ⟨by decide, by decide⟩ | exact absurd rfl fixed

end TypeId

/-- An element type with the scale of a fixed-point type. -/
structure DataType where
  id : TypeId
  scale : Int
  deriving DecidableEq, Repr

/-- Conversion to `cudf::size_type`, a signed integer of 32 bits. -/
def toSizeType (value : Int) : Int := value.bmod (2 ^ 32)

/-- A number of rows that `cudf::size_type` can hold is not changed. -/
theorem toSizeType_eq
    {value : Int}
    (nonnegative : 0 ≤ value)
    (bounded : value < 2 ^ 31) :
    toSizeType value = value := by
  unfold toSizeType
  apply Int.bmod_eq_of_le_mul_two <;> omega

theorem toSizeType_lt (value : Int) : toSizeType value < 2 ^ 31 := by
  have bound : toSizeType value < (2 ^ 32 + 1) / 2 :=
    Int.bmod_lt (by decide)
  omega

theorem toSizeType_le {value : Int} (nonnegative : 0 ≤ value) : toSizeType value ≤ value := by
  rcases lt_or_ge value (2 ^ 31) with small | large
  · exact (toSizeType_eq nonnegative small).le
  · exact (toSizeType_lt value).le.trans large

/-- A count that needs the sign bit becomes negative. -/
theorem toSizeType_neg
    {value : Int}
    (large : 2 ^ 31 ≤ value)
    (bounded : value < 2 ^ 32) :
    toSizeType value < 0 := by
  unfold toSizeType
  rw [Int.bmod_def]
  omega

/-- The content of one field of a row: nothing if it is null, and otherwise its
bytes. -/
abbrev Cell := Option (List Byte)

/-- One row of a table. -/
abbrev Row := List Cell

/-- A column in device memory. -/
structure Column where
  type : DataType
  /-- Number of rows. -/
  size : Int
  /-- Number of elements that a sliced view skips. -/
  offset : Nat
  /-- The buffer behind `head()`. -/
  head : List Byte
  /-- Validity of the elements, if the column is nullable. -/
  null_mask : Option (List Bool)
  /-- The elements of `child(0)` of a string column. -/
  child_offsets : List Int
  /-- The buffer of `child(1)` of a string column. -/
  child_chars : List Byte
  deriving DecidableEq

namespace Column

variable (column : Column)

/-- Whether an element is valid. -/
def is_valid (row : Nat) : Bool :=
  match column.null_mask with
  | none => true
  | some mask => mask.getD (column.offset + row) false

/-- The string stored at a row of a string column. -/
def string_at (row : Nat) : List Byte :=
  readRange column.child_chars
    (column.child_offsets.getD (column.offset + row) 0)
    (column.child_offsets.getD (column.offset + row + 1) 0 -
      column.child_offsets.getD (column.offset + row) 0).toNat

/-- The bytes stored at a row of a fixed-width column. -/
def element_at (row : Nat) : List Byte :=
  readRange column.head
    ((column.offset + row) * column.type.id.size_of : Nat) column.type.id.size_of

/-- The content of a row. -/
def cell (row : Nat) : Cell :=
  if column.is_valid row then
    some (if column.type.id = .STRING then column.string_at row
      else column.element_at row)
  else none

/-- All rows. -/
def cells : List Cell :=
  (List.range column.size.toNat).map column.cell

@[simp] theorem length_cells : column.cells.length = column.size.toNat := by
  simp [cells]

/-- A column as cuDF creates them: rows and characters can be counted, and the
offsets of a string column cut its characters into strings. -/
structure Sound : Prop where
  size_nonneg : 0 ≤ column.size
  size_lt : column.size < 2 ^ 31
  /-- A string column has an offset before and after every row. -/
  offsets_cover : column.type.id = .STRING →
    column.offset + column.size.toNat < column.child_offsets.length
  /-- The offsets of a string column do not decrease. -/
  offsets_sorted : column.type.id = .STRING →
    column.child_offsets.Pairwise (· ≤ ·)
  /-- The offsets of a string column point into the characters. -/
  offsets_bound : column.type.id = .STRING →
    ∀ value ∈ column.child_offsets,
      0 ≤ value ∧ value ≤ column.child_chars.length
  /-- Character positions have the width of a row count. -/
  chars_lt : column.type.id = .STRING → column.child_chars.length < 2 ^ 31

/-- A column that is neither sliced nor nullable and whose buffers fit its
size. -/
structure WellFormed : Prop extends column.Sound where
  unsliced : column.offset = 0
  non_null : column.null_mask = none
  /-- A fixed-width column stores its elements side by side. -/
  fixed : column.type.id ≠ .STRING →
    column.head.length = column.size.toNat * column.type.id.size_of
  /-- A string column has one more offset than rows. -/
  offsets_length : column.type.id = .STRING →
    column.child_offsets.length = column.size.toNat + 1

end Column

/-- A table: its columns. -/
abbrev Table := List Column

/-- Rows from columns of cells. -/
def rowsOf (count : Nat) (columns : List (List Cell)) : List Row :=
  (List.range count).map fun row => columns.map fun cells => cells.getD row none

@[simp] theorem length_rowsOf (count : Nat) (columns : List (List Cell)) :
    (rowsOf count columns).length = count := by
  simp [rowsOf]

/-- A column can be read from the rows. -/
theorem map_getD_rowsOf
    {count icol : Nat}
    {columns : List (List Cell)}
    (icolBound : icol < columns.length)
    (length : columns[icol].length = count) :
    ((rowsOf count columns).map fun row => row.getD icol none) = columns[icol] := by
  unfold rowsOf
  rw [List.map_map]
  apply List.ext_getElem
  · rw [List.length_map, List.length_range, length]
  · intro row _ rowBound
    simp only [List.getElem_map, List.getElem_range, Function.comp_apply]
    rw [List.getD_eq_getElem _ _ (by simpa using icolBound), List.getElem_map,
      List.getD_eq_getElem _ _ rowBound]

/-- Stacking columns on top of each other stacks the rows. -/
theorem rowsOf_append
    {κ : Type}
    (keys : List κ)
    {upperCount lowerCount : Nat}
    {upper lower : κ → List Cell}
    (upperLength : ∀ key ∈ keys, (upper key).length = upperCount) :
    rowsOf (upperCount + lowerCount) (keys.map fun key => upper key ++ lower key) =
      rowsOf upperCount (keys.map upper) ++ rowsOf lowerCount (keys.map lower) := by
  unfold rowsOf
  rw [List.range_add, List.map_append, List.map_map]
  congr 1
  · apply List.map_congr_left
    intro row member
    rw [List.map_map, List.map_map]
    apply List.map_congr_left
    intro key keyMember
    have rowBound : row < (upper key).length := by
      rw [upperLength key keyMember]
      exact List.mem_range.mp member
    exact List.getD_append _ _ _ _ rowBound
  · apply List.map_congr_left
    intro row _
    simp only [Function.comp_apply, List.map_map]
    apply List.map_congr_left
    intro key keyMember
    have lengthEquality := upperLength key keyMember
    simp only [Function.comp_apply]
    rw [List.getD_append_right _ _ _ _ (by omega)]
    congr 1
    omega

/-- Cutting all columns at the same rows cuts the rows. -/
theorem rowsOf_slice
    {κ : Type}
    (keys : List κ)
    {total start count : Nat}
    {cells : κ → List Cell}
    (inside : start + count ≤ total) :
    rowsOf count (keys.map fun key => ((cells key).drop start).take count) =
      ((rowsOf total (keys.map cells)).drop start).take count := by
  apply List.ext_getElem
  · rw [length_rowsOf, List.length_take, List.length_drop, length_rowsOf]
    omega
  · intro row rowBound _
    rw [length_rowsOf] at rowBound
    simp only [rowsOf, List.getElem_map, List.getElem_range, List.getElem_take,
      List.getElem_drop, List.map_map]
    apply List.map_congr_left
    intro key _
    simp only [Function.comp_apply, List.getD_eq_getElem?_getD, List.getElem?_take,
      List.getElem?_drop, if_pos rowBound]

/-- The columns of several parts, stacked part by part. -/
theorem rowsOf_flatMap
    {κ π : Type}
    (keys : List κ)
    (parts : List π)
    {count : π → Nat}
    {cells : π → κ → List Cell}
    (lengths : ∀ part ∈ parts, ∀ key ∈ keys,
      (cells part key).length = count part) :
    rowsOf (parts.map count).sum
        (keys.map fun key => parts.flatMap fun part => cells part key) =
      parts.flatMap fun part => rowsOf (count part) (keys.map (cells part)) := by
  induction parts with
  | nil => rfl
  | cons head tail inductionHypothesis =>
      rw [List.map_cons, List.sum_cons, List.flatMap_cons,
        ← inductionHypothesis fun part member => lengths part (by simp [member])]
      exact rowsOf_append keys fun key keyMember => lengths head (by simp) key keyMember

namespace Table

/-- Number of rows, which all columns share. -/
def num_rows (table : Table) : Int :=
  match table with
  | [] => 0
  | column :: _ => column.size

/-- The element types of the columns. -/
def schema (table : Table) : List DataType := table.map (·.type)

/-- A column without rows, standing for a column that does not exist. -/
def missingColumn : Column where
  type := ⟨.INT8, 0⟩
  size := 0
  offset := 0
  head := []
  null_mask := none
  child_offsets := []
  child_chars := []

/-- The column with a given index. -/
def column (table : Table) (icol : Nat) : Column := table.getD icol missingColumn

/-- All rows, with the content of all columns. -/
def rows (table : Table) : List Row :=
  rowsOf table.num_rows.toNat (table.map (·.cells))

@[simp] theorem length_rows (table : Table) :
    table.rows.length = table.num_rows.toNat := by
  simp [rows]

/-- A table as cuDF creates them: its columns have the same number of rows. -/
structure Sound (table : Table) : Prop where
  columns : ∀ column ∈ table, column.Sound
  sizes : ∀ column ∈ table, column.size = table.num_rows

theorem Sound.num_rows_nonneg {table : Table} (sound : table.Sound) :
    0 ≤ table.num_rows := by
  cases table with
  | nil => exact Int.le_refl 0
  | cons column rest => exact (sound.columns column (by simp)).size_nonneg

theorem Sound.num_rows_lt {table : Table} (sound : table.Sound) :
    table.num_rows < 2 ^ 31 := by
  cases table with
  | nil => decide
  | cons column rest => exact (sound.columns column (by simp)).size_lt

/-- All columns are well formed and have the same number of rows. -/
structure WellFormed (table : Table) : Prop where
  columns : ∀ column ∈ table, column.WellFormed
  sizes : ∀ column ∈ table, column.size = table.num_rows

theorem WellFormed.sound {table : Table} (wellFormed : table.WellFormed) :
    table.Sound where
  columns := fun column member => (wellFormed.columns column member).toSound
  sizes := wellFormed.sizes

end Table

end DistributedJoin
