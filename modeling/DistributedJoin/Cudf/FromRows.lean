import DistributedJoin.Comm.StringsColumn
import DistributedJoin.Cudf.HashPartition

/-!
# Tables from rows

A table that is built from rows has these rows, as long as they have the shape of the
schema. Sorting the rows of a table by hash values and building the table again is a hash
partitioning, if the rows can be counted.
-/

namespace DistributedJoin

open Device

namespace Column

/-- The bytes that are stored for a cell. -/
def storedBytes (id : TypeId) (cell : Cell) : List Byte :=
  cell.getD (List.replicate id.size_of 0)

/-- The column with the given cells. -/
def ofCells (type : DataType) (cells : List Cell) : Column where
  type := type
  size := cells.length
  offset := 0
  head := if type.id = .STRING then [] else (cells.map (storedBytes type.id)).flatten
  null_mask := if none ∈ cells then some (cells.map Option.isSome) else none
  child_offsets := if type.id = .STRING then
      offsetsOf (sizesOf (cells.map (storedBytes type.id)))
    else []
  child_chars := if type.id = .STRING then (cells.map (storedBytes type.id)).flatten else []

/-- Cells that have the width of a type, if it has one. -/
def CellsSized (type : DataType) (cells : List Cell) : Prop :=
  type.id ≠ .STRING → ∀ bytes, some bytes ∈ cells → bytes.length = type.id.size_of

/-- Cells that a column of a type can hold. -/
structure CellsFit (type : DataType) (cells : List Cell) : Prop where
  count : cells.length < 2 ^ 31
  width : CellsSized type cells
  chars : type.id = .STRING → (cells.map (storedBytes type.id)).flatten.length < 2 ^ 31

theorem CellsFit.of_perm
    {type : DataType}
    {cells other : List Cell}
    (fit : CellsFit type cells)
    (rearranged : other.Perm cells) :
    CellsFit type other where
  count := rearranged.length_eq ▸ fit.count
  width := fun fixed bytes member => fit.width fixed bytes (rearranged.mem_iff.mp member)
  chars := fun string =>
    ((rearranged.map (storedBytes type.id)).flatten.length_eq).trans_lt (fit.chars string)

/-- The cells of a sound column fit its type. -/
theorem Sound.cellsFit {column : Column} (sound : column.Sound) :
    CellsFit column.type column.cells where
  count := by
    have small := sound.size_lt
    have nonnegative := sound.size_nonneg
    rw [length_cells]
    omega
  width := by
    intro fixed bytes member
    obtain ⟨row, _, cell⟩ := List.mem_map.mp member
    unfold Column.cell at cell
    rw [if_neg fixed] at cell
    split at cell
    · rw [← Option.some.inj cell, element_at, length_readRange]
    · contradiction
  chars := by
    intro string
    have cover := sound.offsets_cover string
    have each : ∀ row, row < column.size.toNat →
        ((storedBytes column.type.id (column.cell row)).length : Int) ≤
          column.child_offsets.getD (column.offset + (row + 1)) 0 -
            column.child_offsets.getD (column.offset + row) 0 := by
      intro row rowBound
      have ordered : column.child_offsets.getD (column.offset + row) 0 ≤
          column.child_offsets.getD (column.offset + (row + 1)) 0 := by
        rw [List.getD_eq_getElem _ _ (by omega), List.getD_eq_getElem _ _ (by omega)]
        exact List.pairwise_iff_getElem.mp (sound.offsets_sorted string) _ _ _ _ (by omega)
      unfold Column.cell storedBytes
      rw [if_pos string]
      split
      · have same : column.offset + row + 1 = column.offset + (row + 1) := Nat.add_assoc _ _ _
        rw [string_at, Option.getD_some, length_readRange, same]
        omega
      · rw [Option.getD_none, string]
        simp only [TypeId.size_of, List.replicate_zero, List.length_nil, Nat.cast_zero]
        omega
    have total : ∀ count, count ≤ column.size.toNat →
        ((((List.range count).map column.cell).map (storedBytes column.type.id)).flatten.length : Int) ≤
          column.child_offsets.getD (column.offset + count) 0 -
            column.child_offsets.getD (column.offset + 0) 0 := by
      intro count
      induction count with
      | zero => simp
      | succ count inductionHypothesis =>
          intro inside
          have earlier := inductionHypothesis (Nat.le_of_succ_le inside)
          have here := each count inside
          rw [List.range_succ, List.map_append, List.map_append, List.flatten_append,
            List.length_append]
          simp only [List.map_cons, List.map_nil, List.flatten_singleton, Nat.cast_add]
          omega
    have whole := total _ (Nat.le_refl _)
    have first := sound.offsets_bound string (column.child_offsets.getD (column.offset + 0) 0)
      (by rw [List.getD_eq_getElem _ _ (by omega)]; exact List.getElem_mem _)
    have last := sound.offsets_bound string
      (column.child_offsets.getD (column.offset + column.size.toNat) 0)
      (by rw [List.getD_eq_getElem _ _ cover]; exact List.getElem_mem _)
    have chars := sound.chars_lt string
    unfold cells
    omega

section OfCells

variable {type : DataType} {cells : List Cell}

theorem head_ofCells (fixed : type.id ≠ .STRING) :
    (ofCells type cells).head = (cells.map (storedBytes type.id)).flatten :=
  if_neg fixed

theorem child_offsets_ofCells (string : type.id = .STRING) :
    (ofCells type cells).child_offsets =
      offsetsOf (sizesOf (cells.map (storedBytes type.id))) :=
  if_pos string

theorem child_chars_ofCells (string : type.id = .STRING) :
    (ofCells type cells).child_chars = (cells.map (storedBytes type.id)).flatten :=
  if_pos string

theorem length_offsets_ofCells (string : type.id = .STRING) :
    (ofCells type cells).child_offsets.length = cells.length + 1 := by
  rw [child_offsets_ofCells string, length_offsetsOf, sizesOf, List.length_map, List.length_map]

theorem getD_offsets_ofCells (string : type.id = .STRING) {row : Nat} (inside : row ≤ cells.length) :
    (ofCells type cells).child_offsets.getD row 0 =
      (((cells.map (storedBytes type.id)).take row).flatten.length : Nat) := by
  have bound : row ≤ (sizesOf (cells.map (storedBytes type.id))).length := by
    simpa [sizesOf] using inside
  rw [child_offsets_ofCells string, getD_offsetsOf _ bound, sum_take_sizesOf]

theorem string_at_ofCells
    (string : type.id = .STRING)
    {row : Nat}
    (inside : row < cells.length) :
    (ofCells type cells).string_at row = storedBytes type.id cells[row] := by
  have start := getD_offsets_ofCells string (Nat.le_of_lt inside)
  have finish : (ofCells type cells).child_offsets.getD (row + 1) 0 = _ :=
    getD_offsets_ofCells string inside
  have storedBound : row < (cells.map (storedBytes type.id)).length := by simpa using inside
  have next : ((cells.map (storedBytes type.id)).take (row + 1)).flatten.length =
      ((cells.map (storedBytes type.id)).take row).flatten.length +
        (storedBytes type.id cells[row]).length := by
    rw [List.take_succ_eq_append_getElem storedBound, List.flatten_append, List.length_append,
      List.flatten_singleton, List.getElem_map]
  have size : ((((cells.map (storedBytes type.id)).take row).flatten.length +
      (storedBytes type.id cells[row]).length : Nat) -
        (((cells.map (storedBytes type.id)).take row).flatten.length : Int)).toNat =
          (storedBytes type.id cells[row]).length := by omega
  have chars : (ofCells type cells).child_chars =
      ((cells.map (storedBytes type.id)).take row).flatten ++ storedBytes type.id cells[row] ++
        ((cells.map (storedBytes type.id)).drop (row + 1)).flatten := by
    rw [child_chars_ofCells string]
    conv_lhs => rw [← List.take_append_drop (row + 1) (cells.map (storedBytes type.id)),
      List.take_succ_eq_append_getElem storedBound]
    rw [List.flatten_append, List.flatten_append, List.flatten_singleton, List.getElem_map]
  have unsliced : (ofCells type cells).offset = 0 := rfl
  rw [string_at, unsliced, Nat.zero_add, start, finish, next, size, chars]
  exact readRange_append _ _ _

theorem element_at_ofCells
    (sized : CellsSized type cells)
    (fixed : type.id ≠ .STRING)
    {row : Nat}
    (inside : row < cells.length) :
    (ofCells type cells).element_at row = storedBytes type.id cells[row] := by
  have uniform : ∀ item ∈ cells.map (storedBytes type.id), item.length = type.id.size_of := by
    intro item member
    obtain ⟨cell, cellMember, rfl⟩ := List.mem_map.mp member
    cases cell with
    | none => exact List.length_replicate
    | some bytes => exact sized fixed bytes cellMember
  have read := itemsOf_flatten uniform
  rw [List.length_map] at read
  have item := congrArg (fun items => items.getD row []) read
  simp only [itemsOf] at item
  rw [List.getD_eq_getElem _ _ (by simpa using inside),
    List.getD_eq_getElem _ _ (by simpa using inside), List.getElem_map, List.getElem_range,
    List.getElem_map] at item
  have unsliced : (ofCells type cells).offset = 0 := rfl
  rw [element_at, unsliced, Nat.zero_add, head_ofCells fixed]
  exact item

theorem is_valid_ofCells {row : Nat} (inside : row < cells.length) :
    (ofCells type cells).is_valid row = cells[row].isSome := by
  unfold is_valid ofCells
  by_cases null : none ∈ cells
  · simp [null, inside]
  · simp only [null, if_false]
    cases found : cells[row] with
    | none => exact absurd (found ▸ List.getElem_mem inside) null
    | some bytes => rfl

/-- The column has the given cells. -/
theorem cells_ofCells (sized : CellsSized type cells) : (ofCells type cells).cells = cells := by
  have size : (ofCells type cells).size.toNat = cells.length := Int.toNat_natCast _
  apply List.ext_getElem
  · rw [length_cells, size]
  · intro row _ inside
    have valid : (ofCells type cells).is_valid row = _ := is_valid_ofCells inside
    have type_eq : (ofCells type cells).type = type := rfl
    have content : (if (ofCells type cells).type.id = .STRING then
        (ofCells type cells).string_at row else (ofCells type cells).element_at row) =
          storedBytes type.id cells[row] := by
      rw [type_eq]
      split
      · rename_i string
        exact string_at_ofCells string inside
      · rename_i fixed
        exact element_at_ofCells sized fixed inside
    simp only [Column.cells, List.getElem_map, List.getElem_range]
    rw [cell, valid, content]
    cases cells[row] <;> rfl

theorem sound_ofCells (fit : CellsFit type cells) : (ofCells type cells).Sound where
  size_nonneg := Int.natCast_nonneg _
  size_lt := by
    have count := fit.count
    change (cells.length : Int) < 2 ^ 31
    omega
  offsets_cover := by
    intro string
    have size : (ofCells type cells).size.toNat = cells.length := Int.toNat_natCast _
    have unsliced : (ofCells type cells).offset = 0 := rfl
    have length : (ofCells type cells).child_offsets.length = cells.length + 1 :=
      length_offsets_ofCells string
    omega
  offsets_sorted := by
    intro string
    have length : (ofCells type cells).child_offsets.length = cells.length + 1 :=
      length_offsets_ofCells string
    rw [List.pairwise_iff_getElem]
    intro first second firstBound secondBound ordered
    have left : (ofCells type cells).child_offsets.getD first 0 = _ :=
      getD_offsets_ofCells string (by omega)
    have right : (ofCells type cells).child_offsets.getD second 0 = _ :=
      getD_offsets_ofCells string (by omega)
    have prefixes := length_flatten_take_le
      ((cells.map (storedBytes type.id)).take second) first
    rw [List.take_take, Nat.min_eq_left (Nat.le_of_lt ordered)] at prefixes
    rw [← List.getD_eq_getElem _ 0, ← List.getD_eq_getElem _ 0, left, right]
    exact_mod_cast prefixes
  offsets_bound := by
    intro string value member
    obtain ⟨row, rowBound, rfl⟩ := List.getElem_of_mem member
    have length : (ofCells type cells).child_offsets.length = cells.length + 1 :=
      length_offsets_ofCells string
    have offset : (ofCells type cells).child_offsets.getD row 0 =
        (((cells.map (storedBytes type.id)).take row).flatten.length : Nat) :=
      getD_offsets_ofCells string (by omega)
    have chars : (ofCells type cells).child_chars = _ := child_chars_ofCells string
    have part := length_flatten_take_le (cells.map (storedBytes type.id)) row
    rw [← List.getD_eq_getElem _ 0, offset, chars]
    omega
  chars_lt := by
    intro string
    have chars : (ofCells type cells).child_chars = _ := child_chars_ofCells string
    rw [chars]
    exact fit.chars string

end OfCells

end Column

namespace Table

/-- The table with the given rows. -/
def ofRows (schema : List DataType) (rows : List Row) : Table :=
  (List.range schema.length).map fun icol =>
    Column.ofCells (schema.getD icol missingColumn.type) (rows.map fun row => row.getD icol none)

/-- Rows that have the shape of a schema. -/
structure RowsSized (schema : List DataType) (rows : List Row) : Prop where
  cells : ∀ icol, icol < schema.length →
    Column.CellsSized (schema.getD icol missingColumn.type) (rows.map fun row => row.getD icol none)
  width : ∀ row ∈ rows, row.length = schema.length
  empty : schema = [] → rows = []

/-- Rows that a table of a schema can hold. -/
structure RowsFit (schema : List DataType) (rows : List Row) : Prop where
  cells : ∀ icol, icol < schema.length →
    Column.CellsFit (schema.getD icol missingColumn.type) (rows.map fun row => row.getD icol none)
  width : ∀ row ∈ rows, row.length = schema.length
  empty : schema = [] → rows = []

/-- Rows that are put together from rows of two schemas. -/
theorem RowsSized.append
    {first second : List DataType}
    {left right combined : List Row}
    (leftSized : RowsSized first left)
    (rightSized : RowsSized second right)
    (pairs : ∀ row ∈ combined, ∃ head ∈ left, ∃ tail ∈ right, row = head ++ tail) :
    RowsSized (first ++ second) combined where
  cells := by
    intro icol icolBound fixed bytes member
    obtain ⟨row, rowMember, cell⟩ := List.mem_map.mp member
    obtain ⟨head, headMember, tail, tailMember, rfl⟩ := pairs row rowMember
    have width := leftSized.width head headMember
    rw [List.length_append] at icolBound
    rcases Nat.lt_or_ge icol first.length with inLeft | inRight
    · rw [List.getD_append _ _ _ _ inLeft] at fixed ⊢
      rw [List.getD_append _ _ _ _ (inLeft.trans_eq width.symm)] at cell
      exact leftSized.cells icol inLeft fixed bytes
        (List.mem_map.mpr ⟨head, headMember, cell⟩)
    · rw [List.getD_append_right _ _ _ _ inRight] at fixed ⊢
      rw [List.getD_append_right _ _ _ _ (width.trans_le inRight), width] at cell
      exact rightSized.cells (icol - first.length) (by omega) fixed bytes
        (List.mem_map.mpr ⟨tail, tailMember, cell⟩)
  width := by
    intro row rowMember
    obtain ⟨head, headMember, tail, tailMember, rfl⟩ := pairs row rowMember
    rw [List.length_append, List.length_append, leftSized.width head headMember,
      rightSized.width tail tailMember]
  empty := by
    intro none
    refine List.eq_nil_iff_forall_not_mem.mpr fun row rowMember => ?_
    obtain ⟨head, headMember, _⟩ := pairs row rowMember
    rw [leftSized.empty (List.append_eq_nil_iff.mp none).1] at headMember
    contradiction

theorem RowsFit.sized
    {schema : List DataType}
    {rows : List Row}
    (fit : RowsFit schema rows) :
    RowsSized schema rows where
  cells := fun icol icolBound => (fit.cells icol icolBound).width
  width := fit.width
  empty := fit.empty

theorem RowsFit.of_perm
    {schema : List DataType}
    {rows other : List Row}
    (fit : RowsFit schema rows)
    (rearranged : other.Perm rows) :
    RowsFit schema other where
  cells := fun icol icolBound => (fit.cells icol icolBound).of_perm (rearranged.map _)
  width := fun row member => fit.width row (rearranged.mem_iff.mp member)
  empty := fun none => (fit.empty none ▸ rearranged).eq_nil

/-- The cells of a column, read from the rows. -/
theorem map_getD_rows
    {table : Table}
    {icol : Nat}
    (icolBound : icol < table.length)
    (size : (table.column icol).size = table.num_rows) :
    (table.rows.map fun row => row.getD icol none) = (table.column icol).cells := by
  have inside : icol < (table.map (·.cells)).length := by simpa using icolBound
  have same : (table.map (·.cells))[icol] = (table.column icol).cells := by
    rw [List.getElem_map, column, List.getD_eq_getElem _ _ icolBound]
  rw [← same]
  exact map_getD_rowsOf inside (by rw [same, Column.length_cells, size])

/-- The rows of a sound table fit its schema. -/
theorem Sound.rowsFit {table : Table} (sound : table.Sound) :
    RowsFit table.schema table.rows where
  cells := by
    intro icol icolBound
    rw [schema, List.length_map] at icolBound
    have member : table.column icol ∈ table := by
      rw [column, List.getD_eq_getElem _ _ icolBound]
      exact List.getElem_mem icolBound
    have type : table.schema.getD icol missingColumn.type = (table.column icol).type := by
      rw [schema, column, List.getD_map]
    rw [map_getD_rows icolBound (sound.sizes _ member), type]
    exact (sound.columns _ member).cellsFit
  width := by
    intro row member
    obtain ⟨index, _, rfl⟩ := List.mem_map.mp member
    rw [List.length_map, List.length_map, schema, List.length_map]
  empty := by
    intro none
    have columns : table = [] := List.map_eq_nil_iff.mp none
    rw [columns]
    rfl

section OfRows

variable {schema : List DataType} {rows : List Row}

@[simp] theorem schema_ofRows (schema : List DataType) (rows : List Row) :
    (ofRows schema rows).schema = schema := by
  apply List.ext_getElem
  · simp [Table.schema, ofRows]
  · intro icol _ icolBound
    simp only [Table.schema, ofRows, List.map_map, List.getElem_map, List.getElem_range,
      Function.comp_apply, Column.ofCells]
    exact List.getD_eq_getElem _ _ icolBound

theorem mem_ofRows {column : Column} (member : column ∈ ofRows schema rows) :
    ∃ icol, icol < schema.length ∧
      Column.ofCells (schema.getD icol missingColumn.type)
        (rows.map fun row => row.getD icol none) = column := by
  obtain ⟨icol, range, column⟩ := List.mem_map.mp member
  exact ⟨icol, List.mem_range.mp range, column⟩

theorem unsliced_ofRows {column : Column} (member : column ∈ ofRows schema rows) :
    column.offset = 0 := by
  obtain ⟨icol, _, rfl⟩ := mem_ofRows member
  rfl

/-- A table has as many rows as it was made of, if it has columns. -/
theorem num_rows_ofRows_of_columns (empty : schema = [] → rows = []) :
    (ofRows schema rows).num_rows = rows.length := by
  cases types : schema with
  | nil =>
      rw [empty types]
      rfl
  | cons type rest =>
      simp only [ofRows, List.length_cons, List.range_succ_eq_map, List.map_cons, num_rows,
        Column.ofCells, List.length_map]

theorem num_rows_ofRows (fit : RowsFit schema rows) :
    (ofRows schema rows).num_rows = rows.length :=
  num_rows_ofRows_of_columns fit.empty

theorem sound_ofRows (fit : RowsFit schema rows) : (ofRows schema rows).Sound where
  columns := by
    intro column member
    obtain ⟨icol, icolBound, rfl⟩ := mem_ofRows member
    exact Column.sound_ofCells (fit.cells icol icolBound)
  sizes := by
    intro column member
    obtain ⟨icol, icolBound, rfl⟩ := mem_ofRows member
    rw [num_rows_ofRows fit]
    simp [Column.ofCells]

/-- The table has the given rows. -/
theorem rows_ofRows (sized : RowsSized schema rows) : (ofRows schema rows).rows = rows := by
  have count : (ofRows schema rows).num_rows.toNat = rows.length := by
    rw [num_rows_ofRows_of_columns sized.empty, Int.toNat_natCast]
  apply List.ext_getElem
  · rw [length_rows, count]
  · intro row inTable rowBound
    rw [getElem_rows inTable, ofRows, List.map_map]
    have width := sized.width rows[row] (List.getElem_mem rowBound)
    apply List.ext_getElem
    · rw [List.length_map, List.length_range, width]
    · intro icol icolBound rowIcol
      rw [List.length_map, List.length_range] at icolBound
      simp only [List.getElem_map, List.getElem_range, Function.comp_apply]
      rw [Column.cells_ofCells (sized.cells icol icolBound),
        List.getD_eq_getElem _ _ (by simpa using rowBound), List.getElem_map,
        List.getD_eq_getElem _ _ rowIcol]

end OfRows

end Table

/-- Hash partitioning, by way of the rows of the table. -/
def sorted_by_hash (hash : HashId → Nat → List Cell → Nat) : HashPartition :=
  fun input on_columns num_partitions hash_function hash_seed =>
    let part := fun index => input.rows.filter fun row =>
      hash hash_function hash_seed (keyOf on_columns row) % num_partitions = index
    (Table.ofRows input.schema ((List.range num_partitions).flatMap part),
      (List.range num_partitions).map fun index => (((List.range index).flatMap part).length : Int))

theorem offsets_sorted_by_hash
    (hash : HashId → Nat → List Cell → Nat)
    (input : Table)
    (on_columns : List Nat)
    (num_partitions : Nat)
    (hash_function : HashId)
    (hash_seed : Nat) :
    (sorted_by_hash hash input on_columns num_partitions hash_function hash_seed).2.Pairwise
      (· ≤ ·) := by
  refine List.pairwise_map.mpr (List.pairwise_lt_range.imp fun ordered => ?_)
  exact_mod_cast Relational.length_flatMap_range_le _ (Nat.le_of_lt ordered)

/-- Sorting the rows of a table that can be counted is a hash partitioning. -/
theorem partitioned_sorted_by_hash
    (hash : HashId → Nat → List Cell → Nat)
    {input : Table}
    (sound : input.Sound)
    (on_columns : List Nat)
    {num_partitions : Nat}
    (positive : 0 < num_partitions)
    (hash_function : HashId)
    (hash_seed : Nat) :
    Partitioned (hash hash_function hash_seed) on_columns num_partitions input
      (sorted_by_hash hash input on_columns num_partitions hash_function hash_seed).1
      (sorted_by_hash hash input on_columns num_partitions hash_function hash_seed).2 := by
  let part : Nat → List Row := fun index => input.rows.filter fun row =>
    hash hash_function hash_seed (keyOf on_columns row) % num_partitions = index
  let position : Nat → Nat := fun index => ((List.range index).flatMap part).length
  have rearranged : ((List.range num_partitions).flatMap part).Perm input.rows :=
    Relational.flatMap_filter_perm fun row _ => Nat.mod_lt _ positive
  have fit := sound.rowsFit.of_perm rearranged
  have rows := Table.rows_ofRows fit.sized
  have count := Table.num_rows_ofRows fit
  have offsets : ∀ index, index ≤ num_partitions →
      (((List.range num_partitions).map fun index => (position index : Int)) ++
        [(position num_partitions : Int)]).getD index 0 = position index := by
    intro index indexBound
    rcases Nat.lt_or_eq_of_le indexBound with before | rfl
    · rw [List.getD_append _ _ _ _ (by simpa using before),
        List.getD_eq_getElem _ _ (by simpa using before), List.getElem_map, List.getElem_range]
    · rw [List.getD_append_right _ _ _ _ (by simp)]
      simp
  constructor
  case sound => exact Table.sound_ofRows fit
  case unsliced => exact fun column => Table.unsliced_ofRows
  case schema => exact Table.schema_ofRows _ _
  case rows => exact rows.symm ▸ rearranged
  case offsets_length => simp [sorted_by_hash]
  case offsets_first =>
    obtain ⟨more, rfl⟩ := Nat.exists_eq_succ_of_ne_zero (Nat.ne_of_gt positive)
    simp [sorted_by_hash, List.range_succ_eq_map]
  case offsets_sorted => exact offsets_sorted_by_hash _ _ _ _ _ _
  case offsets_inside =>
    intro offset member
    obtain ⟨index, range, rfl⟩ := List.mem_map.mp member
    refine ⟨Int.natCast_nonneg _, ?_⟩
    have inside := Relational.length_flatMap_range_le part (Nat.le_of_lt (List.mem_range.mp range))
    exact (Int.ofNat_le.mpr inside).trans_eq count.symm
  case placed =>
    intro index indexBound row member
    have first := offsets index (Nat.le_of_lt indexBound)
    have last := offsets (index + 1) indexBound
    have total : (position num_partitions : Int) =
        (sorted_by_hash hash input on_columns num_partitions hash_function hash_seed).1.num_rows :=
      count.symm
    rw [total] at first last
    have start : (((sorted_by_hash hash input on_columns num_partitions hash_function hash_seed).2 ++
        [_]).getD index 0).toNat = position index := (congrArg Int.toNat first).trans
          (Int.toNat_natCast _)
    have finish : (((sorted_by_hash hash input on_columns num_partitions hash_function hash_seed).2 ++
        [_]).getD (index + 1) 0).toNat = position (index + 1) := (congrArg Int.toNat last).trans
          (Int.toNat_natCast _)
    have slice := Relational.slice_flatMap_range part indexBound
    rw [start, finish] at member
    have sorted : (sorted_by_hash hash input on_columns num_partitions hash_function hash_seed).1.rows =
      (List.range num_partitions).flatMap part := rows
    rw [sorted, slice] at member
    exact of_decide_eq_true (List.mem_filter.mp member).2

theorem partitions_sorted_by_hash (hash : HashId → Nat → List Cell → Nat) :
    HashPartition.Partitions (sorted_by_hash hash) hash :=
  fun _ on_columns _ hash_function hash_seed sound positive =>
    partitioned_sorted_by_hash hash sound on_columns positive hash_function hash_seed

theorem cuts_sorted_by_hash (hash : HashId → Nat → List Cell → Nat) :
    HashPartition.Cuts (sorted_by_hash hash) := by
  intro input on_columns num_partitions hash_function hash_seed positive
  have partitioned := fun sound : input.Sound =>
    partitioned_sorted_by_hash hash sound on_columns positive hash_function hash_seed
  exact {
    schema := Table.schema_ofRows _ _
    sound := fun sound => (partitioned sound).sound
    offsets_length := by simp [sorted_by_hash]
    offsets_sorted := offsets_sorted_by_hash _ _ _ _ _ _
    offsets_inside := fun sound => (partitioned sound).offsets_inside }

end DistributedJoin
