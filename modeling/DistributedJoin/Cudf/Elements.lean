import DistributedJoin.Cudf.Table

/-!
# The elements of a column

Without its null mask a column is a list of elements. The elements of a
fixed-width column are the items of its data buffer; those of a string column
are the ranges of characters between neighbouring offsets.
-/

namespace DistributedJoin

open Device

namespace Column

variable (column : Column)

/-- The elements of all rows, valid or not. -/
def elements : List (List Byte) :=
  (List.range column.size.toNat).map fun row =>
    if column.type.id = .STRING then column.string_at row else column.element_at row

@[simp] theorem length_elements : column.elements.length = column.size.toNat := by
  simp [elements]

/-- The elements at the beginning of the data buffer. A sliced view has others. -/
def head_elements : List (List Byte) :=
  itemsOf column.head column.type.id.size_of column.size.toNat

@[simp] theorem length_head_elements : column.head_elements.length = column.size.toNat :=
  length_itemsOf _ _ _

variable {column}

theorem length_of_mem_head_elements
    {element : List Byte}
    (member : element ∈ column.head_elements) :
    element.length = column.type.id.size_of :=
  length_of_mem_itemsOf member

/-- Without a null mask every cell holds its element. -/
theorem cells_eq (non_null : column.null_mask = none) :
    column.cells = column.elements.map some := by
  unfold cells elements
  rw [List.map_map]
  apply List.map_congr_left
  intro row _
  have valid : column.is_valid row = true := by
    simp [is_valid, non_null]
  simp [cell, valid]

/-- The elements of a fixed-width column lie side by side. -/
theorem elements_fixed
    (unsliced : column.offset = 0)
    (fixed : column.type.id ≠ .STRING) :
    column.elements = column.head_elements := by
  unfold elements head_elements itemsOf
  apply List.map_congr_left
  intro row _
  rw [if_neg fixed, element_at, unsliced, Nat.zero_add]

/-- The elements of a string column lie between neighbouring offsets. -/
theorem elements_string
    (unsliced : column.offset = 0)
    (string : column.type.id = .STRING) :
    column.elements = (List.range column.size.toNat).map fun row =>
      readRange column.child_chars (column.child_offsets.getD row 0)
        (column.child_offsets.getD (row + 1) 0 -
          column.child_offsets.getD row 0).toNat := by
  unfold elements
  apply List.map_congr_left
  intro row _
  rw [if_pos string, string_at, unsliced, Nat.zero_add]

/-- The offsets of a string column are ordered. -/
theorem Sound.offsets_le
    (sound : column.Sound)
    (string : column.type.id = .STRING)
    {first second : Nat}
    (ordered : first ≤ second)
    (inside : second ≤ column.size.toNat) :
    column.child_offsets.getD first 0 ≤ column.child_offsets.getD second 0 := by
  have size := sound.offsets_cover string
  rw [List.getD_eq_getElem _ _ (by omega), List.getD_eq_getElem _ _ (by omega)]
  rcases Nat.lt_or_eq_of_le ordered with less | rfl
  · exact List.pairwise_iff_getElem.mp (sound.offsets_sorted string) _ _ _ _ less
  · exact Int.le_refl _

/-- The offsets of a string column point into the characters. -/
theorem Sound.getD_offsets_bounds
    (sound : column.Sound)
    (string : column.type.id = .STRING)
    {row : Nat}
    (inside : row ≤ column.size.toNat) :
    0 ≤ column.child_offsets.getD row 0 ∧
      column.child_offsets.getD row 0 ≤ column.child_chars.length := by
  have size := sound.offsets_cover string
  rw [List.getD_eq_getElem _ _ (by omega)]
  exact sound.offsets_bound string _ (List.getElem_mem _)

/-- Consecutive strings are one range of characters. -/
theorem Sound.readRange_string
    (sound : column.Sound)
    (unsliced : column.offset = 0)
    (string : column.type.id = .STRING)
    {start count : Nat}
    (inside : start + count ≤ column.size.toNat) :
    readRange column.child_chars (column.child_offsets.getD start 0)
        (column.child_offsets.getD (start + count) 0 -
          column.child_offsets.getD start 0).toNat =
      ((column.elements.drop start).take count).flatten := by
  let position : Nat → Int := fun row => column.child_offsets.getD row 0
  have ordered : ∀ index, start ≤ index → index < start + count →
      position index ≤ position (index + 1) := fun index _ below =>
    sound.offsets_le string (Nat.le_add_right index 1) (by omega)
  rw [readRange_between column.child_chars ordered, elements_string unsliced string,
    ← List.map_drop, ← List.map_take]
  congr 2
  rw [List.range_eq_range', List.drop_range', List.take_range'_of_length_ge (by omega)]
  simp

/-- The size of a string. -/
theorem Sound.length_element
    (sound : column.Sound)
    (unsliced : column.offset = 0)
    (string : column.type.id = .STRING)
    {row : Nat}
    (inside : row < column.size.toNat) :
    ((column.elements.getD row []).length : Int) =
      column.child_offsets.getD (row + 1) 0 - column.child_offsets.getD row 0 := by
  have ordered := sound.offsets_le string (Nat.le_add_right row 1) inside
  rw [List.getD_eq_getElem _ _ (by simpa using inside),
    List.getElem_of_eq (elements_string unsliced string)]
  rw [List.getElem_map, List.getElem_range, length_readRange]
  omega

end Column

namespace Table

/-- All rows, with whatever is stored where a row is null. -/
def stored_rows (table : Table) : List Row :=
  rowsOf table.num_rows.toNat (table.map fun column => column.elements.map some)

@[simp] theorem length_stored_rows (table : Table) :
    table.stored_rows.length = table.num_rows.toNat :=
  length_rowsOf _ _

/-- Without null masks the rows are what is stored. -/
theorem stored_rows_eq
    {table : Table}
    (non_null : ∀ column ∈ table, column.null_mask = none) :
    table.stored_rows = table.rows := by
  rw [stored_rows, rows]
  congr 1
  apply List.map_congr_left
  intro column member
  exact (Column.cells_eq (non_null column member)).symm

/-- A table with one column of bytes. -/
def ofBytes (bytes : List Byte) : Table :=
  [{  type := ⟨.INT8, 0⟩
      size := bytes.length
      offset := 0
      head := bytes
      null_mask := none
      child_offsets := []
      child_chars := [] }]

theorem wellFormed_ofBytes
    {bytes : List Byte}
    (small : bytes.length < 2 ^ 31) :
    (ofBytes bytes).WellFormed where
  columns := by
    intro column member
    obtain rfl := List.mem_singleton.mp member
    exact {
      size_nonneg := Int.natCast_nonneg _
      size_lt := Int.ofNat_lt.mpr small
      unsliced := rfl
      non_null := rfl
      fixed := fun _ => (Nat.mul_one _).symm
      offsets_length := fun string => by contradiction
      offsets_cover := fun string => by contradiction
      offsets_sorted := fun string => by contradiction
      offsets_bound := fun string => by contradiction
      chars_lt := fun string => by contradiction }
  sizes := by
    intro column member
    obtain rfl := List.mem_singleton.mp member
    rfl

end Table

end DistributedJoin
